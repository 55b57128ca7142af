import Mathlib
import Arvore.Proofs.Compilation
import Arvore.Proofs.Lines.Program
import Arvore.Proofs.Relabelling.Code
import Arvore.Proofs.RoundTrip

/-!
# Lines and the outcome of a compilation

Lines never influence what a program is compiled to. Two programs whose trees differ in nothing but lines have the
same outcome: the same assembly and the same events, or a diagnostic of the same kind after the same events. The
wording of the diagnostics is the same too, unless they name the line of an earlier declaration
(`compile_ignores_lines`). In particular a program that is written and read again is compiled to the same assembly.
-/

namespace Arvore

/-! ### Diagnostics -/

/-- Only a redeclaration names a line in its wording. -/
theorem Diagnostic.Cause.oneLine_eq_self {c : Cause} (h : c.kind ≠ .redeclaration) : c.oneLine = c := by
  cases c with
  | redeclared => exact absurd rfl h
  | _ => rfl

theorem Diagnostic.text_eq_of_oneLine {d d' : Diagnostic} (hkind : d.kind = d'.kind)
    (hcause : d.cause.oneLine = d'.cause.oneLine) (hk : d.kind ≠ .redeclaration) : d.text = d'.text := by
  have hk' : d'.kind ≠ .redeclaration := hkind ▸ hk
  rw [Cause.oneLine_eq_self hk, Cause.oneLine_eq_self hk'] at hcause
  rw [text, text, hcause]

/-! ### Outcomes -/

/-- Two outcomes that differ in nothing but lines: the same events and the same assembly, or the same events and
diagnostics of one kind, with the same wording unless a name was declared again. -/
inductive SameOutcome : List Event × Except Failure String → List Event × Except Failure String → Prop
  | compiled (events : List Event) (assembly : String) : SameOutcome (events, .ok assembly) (events, .ok assembly)
  | refused (events : List Event) {d d' : Diagnostic} (hkind : d.kind = d'.kind)
      (htext : d.kind ≠ .redeclaration → d.text = d'.text) :
      SameOutcome (events, .error (.diagnostic d)) (events, .error (.diagnostic d'))

namespace Program

variable {L : Lexicon} {p q : Program}

/-- Compilation on one line reports the same events and comes to the same assembly or fails alike. -/
theorem compile_oneLine (hw : p.WellFormed L) (align : Bool) :
    (p.oneLine.compile align).1 = (p.compile align).1 ∧
    Alike True id (p.compile align).2 (p.oneLine.compile align).2 := by
  obtain ⟨hevents, hresult⟩ := compile_relabel (fun _ => 1) (fun _ => Function.injective_id) align hw
  exact ⟨hevents, hresult.mono fun _ _ => rfl⟩

theorem sameOutcome_of_oneLine (hp : p.WellFormed L) (hq : q.WellFormed L) (h : p.oneLine = q.oneLine)
    (align : Bool) : SameOutcome (p.compile align) (q.compile align) := by
  obtain ⟨hevents, hone⟩ := compile_oneLine hp align
  obtain ⟨hevents', hone'⟩ := compile_oneLine hq align
  rw [h] at hevents hone
  have hfp := compile_faultless hp align
  have hfq := compile_faultless hq align
  rcases hcp : p.compile align with ⟨events, result⟩
  rcases hcq : q.compile align with ⟨events', result'⟩
  simp only [hcp, hcq] at hevents hevents' hone hone' hfp hfq
  obtain rfl : events = events' := hevents.symm.trans hevents'
  -- no fault is left, so each outcome is an assembly or a diagnostic, and they are of one sort
  rcases hfp.cases with ⟨assembly, rfl⟩ | ⟨d, rfl⟩ <;> rcases hfq.cases with ⟨assembly', rfl⟩ | ⟨d', rfl⟩
  · obtain rfl : assembly' = assembly := by simpa using hone'.eq_ok_iff.1 (hone.eq_ok_iff.2 ⟨_, rfl, rfl⟩)
    exact .compiled events assembly'
  · simpa using hone'.eq_ok_iff.1 (hone.eq_ok_iff.2 ⟨_, rfl, rfl⟩)
  · simpa using hone.eq_ok_iff.1 (hone'.eq_ok_iff.2 ⟨_, rfl, rfl⟩)
  · obtain ⟨e, he, hkind, hcause⟩ := hone.diagnostic
    obtain ⟨e', he', hkind', hcause'⟩ := hone'.diagnostic
    obtain rfl : e = e' := by simpa using he.symm.trans he'
    have hsame : d.kind = d'.kind := hkind.symm.trans hkind'
    exact .refused events hsame (Diagnostic.text_eq_of_oneLine hsame ((hcause trivial).symm.trans (hcause' trivial)))

end Program

theorem SameOutcome.result_iff {x y : List Event × Except Failure String} (h : SameOutcome x y) (assembly : String) :
    x.2 = .ok assembly ↔ y.2 = .ok assembly := by
  cases h with
  | compiled => rfl
  | refused => simp

theorem compileText_eq_ok_iff {text : List Char} {p : Program} (h : Program.load text = .ok p) {align : Bool}
    {assembly : String} : (compileText align text).2 = .ok assembly ↔ (p.compile align).2 = .ok assembly := by
  simp only [compileText, h, mapError_eq_ok_iff]

/-- Lines never influence the outcome of a compilation. A program has the same outcome as every program whose tree
differs from its own in nothing but lines. And the text that it is written to is compiled to the same assembly as the
text it was loaded from, if one of them is compiled at all; for that, the normal forms of the symbols in the text it was
loaded from have to be symbols and normal. -/
theorem compile_ignores_lines {text : List Char} {p : Program} (h : Program.load text = .ok p) (align : Bool) :
    (∀ text' q, Program.load text' = .ok q → q.toTree.oneLine = p.toTree.oneLine →
      SameOutcome (p.compile align) (q.compile align)) ∧
    ((∀ x ∈ Token.symbols text, Token.Normalizes x) → ∃ s, p.toTree.render = .ok s ∧
      ∀ assembly, (compileText align s.toList).2 = .ok assembly ↔ (compileText align text).2 = .ok assembly) := by
  constructor
  · intro text' q hq htree
    have hp := Program.wellFormed_of_load h
    have hq := Program.wellFormed_of_load hq
    exact Program.sameOutcome_of_oneLine hp hq (Program.oneLine_eq_of_toTree hp hq htree.symm) align
  · intro hn
    obtain ⟨d, hd, hp⟩ := Program.load_eq_ok_iff.1 h
    have hw := Load.program_wellFormed (Datum.spelled_of_parse (Token.spelled_of_normalizes hn) hd) hp
    have hread := Program.load_text hw
    refine ⟨p.text, Program.render_toTree hw, fun assembly => ?_⟩
    rw [compileText_eq_ok_iff hread, compileText_eq_ok_iff h]
    refine SameOutcome.result_iff (Program.sameOutcome_of_oneLine (Program.wellFormed_of_load hread)
      (Program.wellFormed_of_load h) p.oneLine_relined align) assembly

/-- A program over several lines, one of which is given by hand. -/
def spread : List Char :=
  "(program
    (func half inteiro [(param inteiro n)]
      [(return ^\x7bline: 40\x7d (binary \"/\" n
        2))])
    (func main []
      [(decl inteiro (init m (call half [7])))
       (print \"half\") (print m)]))".toList

/-- The same program on two other lines. -/
def compact : List Char :=
  "(program (func half inteiro [(param inteiro n)] [(return (binary \"/\" n 2))])
    (func main [] [(decl inteiro (init m (call half [7]))) (print \"half\") (print m)]))".toList

theorem spread_compiles_as_compact : ∃ p q s, Program.load spread = .ok p ∧ Program.load compact = .ok q ∧
    q.toTree ≠ p.toTree ∧ q.toTree.oneLine = p.toTree.oneLine ∧ SameOutcome (p.compile true) (q.compile true) ∧
    p.toTree.render = .ok s ∧ (compileText true spread).2.toBool = true ∧
    ∀ assembly, (compileText true s.toList).2 = .ok assembly ↔ (compileText true spread).2 = .ok assembly := by
  have hsymbols : ∀ x ∈ Token.symbols spread, Token.Normalizes x := by
    apply of_literal (P := fun text => ∀ x ∈ Token.symbols text, Token.Normalizes x)
    decide +kernel
  have hcompiles : (compileText true spread).2.toBool = true := by
    apply of_literal (P := fun text => (compileText true text).2.toBool = true)
    decide +kernel
  have htrees : (Program.load compact).toOption.map (fun q => (Program.load spread).toOption.map fun p =>
      (decide (q.toTree ≠ p.toTree), decide (q.toTree.oneLine = p.toTree.oneLine))) = some (some (true, true)) := by
    unfold spread compact
    rw [String.toList_ofList, String.toList_ofList]
    decide +kernel
  obtain ⟨q, hq, htrees⟩ := map_toOption_eq_some_iff.1 htrees
  obtain ⟨p, hp, htrees⟩ := map_toOption_eq_some_iff.1 htrees
  simp only [Prod.mk.injEq, decide_eq_true_eq] at htrees
  obtain ⟨houtcome, hwritten⟩ := compile_ignores_lines hp true
  obtain ⟨s, hs, hassembly⟩ := hwritten hsymbols
  exact ⟨p, q, s, hp, hq, htrees.1, htrees.2, houtcome compact q hq htrees.2, hs, hcompiles, hassembly⟩

end Arvore
