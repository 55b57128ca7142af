import Mathlib
import Arvore.Proofs.Code.Total
import Arvore.Proofs.Program.Text

/-!
# Compilation without faults

A fault blames the caller of a pass, and in the pipeline from text to assembly the caller of a pass is the pass before
it. Loading makes well-formed programs, analysis meets no fault on them and accepts only what code can be generated
for. So whatever the text, compilation ends with a load error, with a diagnostic or with a listing.
-/

namespace Arvore

/-- A well-formed program is rejected with a diagnostic, or it is accepted and there is a listing for it. -/
theorem Program.analyze_generate {L : Lexicon} {p : Program} (h : p.WellFormed L) :
    (∃ found, p.analyze.2 = .error (.diagnostic found)) ∨
      ∃ c, p.analyze.2 = .ok c ∧ ∀ align, ∃ out, c.generate align = .ok out := by
  rcases (Program.analyze_faultless h).cases with ⟨c, hc⟩ | hd
  · exact .inr ⟨c, hc, Compilation.generate_eq_ok h hc⟩
  · exact .inl hd

theorem Program.compile_faultless {L : Lexicon} {p : Program} (h : p.WellFormed L) (align : Bool) :
    Faultless (p.compile align).2 := by
  rcases hp : p.analyze with ⟨events, result⟩
  rcases Program.analyze_generate h with ⟨found, hd⟩ | ⟨c, hc, hg⟩
  · obtain rfl : result = .error (.diagnostic found) := by simpa [hp] using hd
    simp [Program.compile, hp, Faultless]
  · obtain rfl : result = .ok c := by simpa [hp] using hc
    obtain ⟨⟨listing, literals⟩, ho⟩ := hg align
    simp [Program.compile, hp, ho, Faultless]

/-- Compilation never meets a fault. Loading a text gives an error or a program whose tree has every part that a pass
asks for and can be written; analysis of that program gives a diagnostic or an accepted program; and for an accepted
program there is a listing, with frames aligned or not. -/
theorem compilation_never_faults (text : List Char) :
    ((∃ error, Program.load text = .error error) ∨
      ∃ p, Program.load text = .ok p ∧
        p.toTree.Complete ∧ Program.ofTree p.toTree = p ∧ (∃ written, p.toTree.render = .ok written) ∧
        ((∃ found, p.analyze.2 = .error (.diagnostic found)) ∨
          ∃ c, p.analyze.2 = .ok c ∧ ∀ align, ∃ out, c.generate align = .ok out)) ∧
    ∀ align fault, (compileText align text).2 ≠ .error (.failure (.fault fault)) := by
  cases hl : Program.load text with
  | error error =>
    refine ⟨.inl ⟨error, rfl⟩, fun align fault => ?_⟩
    simp [compileText, hl]
  | ok p =>
    have hw := Program.wellFormed_of_load hl
    refine ⟨.inr ⟨p, rfl, Program.complete_toTree hw, Program.ofTree_toTree hw, ⟨_, Program.render_toTree hw⟩,
      Program.analyze_generate hw⟩, fun align fault => ?_⟩
    have hf := Program.compile_faultless hw align fault
    cases hc : (p.compile align).2 with
    | ok listing => simp [compileText, hl, hc, Except.mapError]
    | error failure => simpa [compileText, hl, hc, Except.mapError] using hf

end Arvore
