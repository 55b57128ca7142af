import Mathlib
import Arvore.Proofs.Relabelling.Analysis
import Arvore.Proofs.Typing.Acceptance

/-!
# The order of functions

A function sees of the other functions their names and signatures only, and finds them in whatever order they are
defined. So the order of the functions of a program has no influence on whether it is accepted, nor on the table of any
function (`analysis_ignores_function_order`): calls may go forward, backward and in circles.
-/

namespace Arvore

theorem CheckedFunction.relabel_self (c : CheckedFunction) : c.relabel {} = c := by
  have hlocals : c.locals.relabel {} = c.locals := congrArg SymbolTable.mk (List.map_id _)
  rw [relabel, Function.relabel_self, hlocals]

/-- Whether a function is accepted, and with which table, depends on the signatures of the others only. -/
theorem Function.analyze_eq_ok_congr {globals globals' : SymbolTable} (hg : globals.SameSignatures globals')
    (f : Function) (c : CheckedFunction) : f.analyze globals' = .ok c ↔ f.analyze globals = .ok c := by
  have h := f.analyze_relabel (r := {}) Function.injective_id hg
  rw [relabel_self] at h
  rw [h.eq_ok_iff]
  simp only [CheckedFunction.relabel_self, exists_eq_right]

/-- Functions with distinct names are found in whatever order they are defined. -/
theorem Function.sameSignatures_of_perm {fs gs : List Function} (hperm : gs.Perm fs)
    (hn : (fs.map Function.name).Nodup) :
    SymbolTable.SameSignatures ⟨fs.map Function.entry⟩ ⟨gs.map Function.entry⟩ := by
  intro name
  have hn' : (gs.map Function.name).Nodup := (hperm.map Function.name).nodup_iff.2 hn
  have hfind : SymbolTable.find? ⟨gs.map Function.entry⟩ name = SymbolTable.find? ⟨fs.map Function.entry⟩ name := by
    ext s
    rw [find?_entries_eq_some_iff hn', find?_entries_eq_some_iff hn]
    simp only [hperm.mem_iff]
  rw [hfind]

namespace Program

variable {L : Lexicon} {p q : Program}

/-- A program with the same functions in another order is accepted too, with the same tables. -/
theorem exists_analyze_of_perm (hp : p.WellFormed L) (hq : q.WellFormed L) (hperm : q.functions.Perm p.functions)
    {c : Compilation} (h : p.analyze.2 = .ok c) : ∃ d, q.analyze.2 = .ok d ∧ d.functions.Perm c.functions := by
  obtain ⟨-, hglobals, hfunctions⟩ := analyze_eq_ok h
  obtain ⟨hn, hentries⟩ := (globals_eq_ok_iff hp).1 hglobals
  have hn' : (q.functions.map Function.name).Nodup := (hperm.map Function.name).nodup_iff.2 hn
  have hglobals' : q.globals = .ok ⟨q.functions.map Function.entry⟩ := (globals_eq_ok_iff hq).2 ⟨hn', rfl⟩
  -- the tables move with their functions
  obtain ⟨ds, hds, hsame⟩ := List.perm_comp_forall₂ hperm hfunctions
  have hall : List.Forall₂ (fun f d => f.analyze ⟨q.functions.map Function.entry⟩ = .ok d) q.functions ds := by
    refine hds.imp fun f d hd => ?_
    rw [hentries] at hd
    exact (Function.analyze_eq_ok_congr (Function.sameSignatures_of_perm hperm hn) f d).2 hd
  refine ⟨⟨q, ⟨q.functions.map Function.entry⟩, ds⟩, ?_, hsame⟩
  simp only [analyze, hglobals', Function.analyzeAll_eq_ok_iff.2 hall]
  rfl

end Program

/-- The order of its functions has no influence on the analysis of a program: it is accepted in every order or in none,
and each function has the same table in every order. -/
theorem analysis_ignores_function_order {text : List Char} {p : Program} (h : Program.load text = .ok p)
    {functions : List Function} (hperm : functions.Perm p.functions) :
    ((∃ d, (Program.mk p.line functions).analyze.2 = .ok d) ↔ ∃ c, p.analyze.2 = .ok c) ∧
    ∀ c d, p.analyze.2 = .ok c → (Program.mk p.line functions).analyze.2 = .ok d →
      c.functions.map CheckedFunction.function = p.functions ∧
      d.functions.map CheckedFunction.function = functions ∧ d.functions.Perm c.functions := by
  have hp := Program.wellFormed_of_load h
  have hq : Program.WellFormed _ ⟨p.line, functions⟩ := ⟨hp.line, fun f hf => hp.functions f (hperm.mem_iff.1 hf)⟩
  refine ⟨⟨?_, ?_⟩, fun c d hc hd => ⟨Program.functions_of_analyze hc, Program.functions_of_analyze hd, ?_⟩⟩
  · rintro ⟨d, hd⟩
    obtain ⟨c, hc, -⟩ := Program.exists_analyze_of_perm hq hp hperm.symm hd
    exact ⟨c, hc⟩
  · rintro ⟨c, hc⟩
    obtain ⟨d, hd, -⟩ := Program.exists_analyze_of_perm hp hq hperm hc
    exact ⟨d, hd⟩
  · obtain ⟨d', hd', hsame⟩ := Program.exists_analyze_of_perm hp hq hperm hc
    obtain rfl : d' = d := Except.ok.inj (hd'.symm.trans hd)
    exact hsame

/-- Two functions that call each other, and one that calls both. -/
def parity : List Char :=
  "(program
    (func even logico [(param inteiro n)]
      [(if (relational \"==\" n 0) [(return verdadeiro)]) (return (call odd [(binary \"-\" n 1)]))])
    (func odd logico [(param inteiro n)]
      [(if (relational \"!=\" n 0) [(decl logico (init r (call even [(binary \"-\" n 1)]))) (return r)])
       (return falso)])
    (func main [] [(decl real x) (decl logico (init r (call even [7]))) (print (call odd [7]))]))".toList

theorem parity_accepted_backwards : ∃ p c d, Program.load parity = .ok p ∧ p.analyze.2 = .ok c ∧
    (Program.mk p.line p.functions.reverse).analyze.2 = .ok d ∧
    p.functions.map Function.name = ["even", "odd", "main"] ∧
    d.functions.map CheckedFunction.function = p.functions.reverse ∧ d.functions.Perm c.functions := by
  obtain ⟨p, hp, h⟩ : ∃ p, Program.load parity = .ok p ∧ (p.functions.map Function.name, p.analyze.2.toBool) =
      (["even", "odd", "main"], true) := by
    apply exists_of_literal
    decide +kernel
  rw [Prod.mk.injEq] at h
  obtain ⟨hnames, h⟩ := h
  cases hc : p.analyze.2 with
  | error failure => simp [hc, Except.toBool] at h
  | ok c =>
    obtain ⟨hiff, hsame⟩ := analysis_ignores_function_order hp p.functions.reverse_perm
    obtain ⟨d, hd⟩ := hiff.2 ⟨c, hc⟩
    exact ⟨p, c, d, hp, hc, hd, hnames, (hsame c d hc hd).2⟩

end Arvore
