import Mathlib
import Arvore.Proofs.Typing.Rules

/-!
# Well-typed programs are accepted

Analysis enters the declarations of a function one after the other and then checks its statements in the complete
table. Every table that it goes through stands for the variables that were declared up to there, so it accepts exactly
the programs that the typing rules allow (`Program.accepted_iff_wellTyped`).
-/

namespace Arvore

variable {L : Lexicon}

/-! ### The functions of a program -/

/-- The symbol under which calls find a function. -/
def Function.entry (f : Function) : String × Symbol :=
  (f.name, { name := f.name, type := .function, line := f.line, signature := some f.sign })

@[simp] theorem Function.entry_fst (f : Function) : f.entry.1 = f.name := rfl

theorem Function.define_eq_ok_iff {f : Function} (hf : f.flaw = none) {t t' : SymbolTable} :
    Function.define t f = .ok t' ↔ f.name ∉ t.entries.map Prod.fst ∧ t' = ⟨t.entries ++ [f.entry]⟩ := by
  have hdefine : Function.define t f = (t.define f.name f.entry.2).mapError .diagnostic := by
    rw [Function.define, Function.symbol, Function.signature, hf]
    rfl
  rw [hdefine, mapError_eq_ok_iff, SymbolTable.define_eq_ok_iff, SymbolTable.find?_eq_none_iff]
  rfl

/-- Functions can be added to a table exactly if no name comes twice. -/
theorem Function.foldlM_define_eq_ok_iff {fs : List Function} (hf : ∀ f ∈ fs, f.flaw = none) {t t' : SymbolTable}
    (ht : (t.entries.map Prod.fst).Nodup) : fs.foldlM Function.define t = .ok t' ↔
      (t.entries.map Prod.fst ++ fs.map Function.name).Nodup ∧ t' = ⟨t.entries ++ fs.map Function.entry⟩ := by
  induction fs generalizing t with
  | nil => simp [ht, pure, Except.pure, eq_comm]
  | cons f rest ih =>
    rw [List.forall_mem_cons] at hf
    have hadd : (t.entries.map Prod.fst ++ [f.name]).Nodup ↔ f.name ∉ t.entries.map Prod.fst := by
      rw [← List.concat_eq_append, List.nodup_concat, and_iff_left ht]
    rw [List.foldlM_cons, bind_eq_ok_iff, List.map_cons, List.map_cons, List.append_cons _ f.name,
      List.append_cons _ f.entry]
    simp only [define_eq_ok_iff hf.1, ← hadd, and_assoc, exists_and_left, exists_eq_left]
    constructor
    · rintro ⟨hnew, h⟩
      simpa using (ih hf.2 (by simpa using hnew)).1 h
    · rintro ⟨hnames, rfl⟩
      have hnew := hnames.of_append_left
      exact ⟨hnew, (ih hf.2 (by simpa using hnew)).2 ⟨by simpa using hnames, rfl⟩⟩

/-- The global table of a program exists if no two functions have the same name, and it lists them in order. -/
theorem Program.globals_eq_ok_iff {p : Program} (hw : p.WellFormed L) {globals : SymbolTable} :
    p.globals = .ok globals ↔ (p.functions.map Function.name).Nodup ∧ globals = ⟨p.functions.map Function.entry⟩ := by
  have h : p.globals = .ok globals ↔ _ :=
    Function.foldlM_define_eq_ok_iff (fun f hf => (hw.functions f hf).flaw) .nil
  simpa using h

/-- A call finds the function that has the name, if there is only one. -/
theorem Function.find?_entries_eq_some_iff {fs : List Function} (hn : (fs.map Function.name).Nodup) {name : String}
    {s : Symbol} : SymbolTable.find? ⟨fs.map Function.entry⟩ name = some s ↔
      ∃ f ∈ fs, f.name = name ∧ f.entry.2 = s := by
  induction fs with
  | nil => simp [SymbolTable.find?]
  | cons f rest ih =>
    rw [List.map_cons, List.nodup_cons] at hn
    rw [List.exists_mem_cons_iff, ← ih hn.2]
    by_cases h : f.name = name
    · have hnone : SymbolTable.find? ⟨rest.map Function.entry⟩ name = none := by
        rw [SymbolTable.find?_eq_none_iff, List.map_map, ← h]
        exact hn.1
      rw [hnone]
      simp [SymbolTable.find?, entry, h]
    · have hne : (name == f.name) = false := by simpa using Ne.symm h
      simp [SymbolTable.find?, List.lookup_cons, entry, h, hne]

/-! ### The variables of a function -/

/-- A table in which variables were declared and the table of the program's functions stand for them. -/
theorem SymbolTable.Declared.standsFor {vs : List Variable} {t : SymbolTable} (ht : Declared vs t) {fs : List Function}
    (hn : (fs.map Function.name).Nodup) : Scope.StandsFor ⟨t, ⟨fs.map Function.entry⟩⟩ ⟨vs, fs⟩ := by
  constructor
  · intro name type
    constructor
    · rintro ⟨s, hs, rfl⟩
      obtain ⟨v, hv, rfl, htype, -⟩ := ht.exists_variable hs
      exact ⟨v, hv, rfl, htype.symm⟩
    · rintro ⟨v, hv, rfl, rfl⟩
      exact ht.find?_of_mem hv
  · intro name signature
    simp only [Function.find?_entries_eq_some_iff hn]
    constructor
    · rintro ⟨_, ⟨f, hf, hname, rfl⟩, hs⟩
      exact ⟨f, hf, hname, hs⟩
    · rintro ⟨f, hf, hname, hs⟩
      exact ⟨_, ⟨f, hf, hname, rfl⟩, hs⟩

/-- A variable can be declared exactly if its name is new. -/
theorem SymbolTable.Declared.exists_declare_iff {vs : List Variable} {t : SymbolTable} (ht : Declared vs t)
    {v : Variable} (hv : v.type.isVariable = true) :
    (∃ t', t.declare v = .ok t') ↔ v.name ∉ vs.map Variable.name := by
  obtain ⟨size, hsize⟩ := Option.isSome_iff_exists.1 ((Ty.isVariable_iff_size?_isSome _).1 hv)
  have hfind : t.find? v.name = none ↔ v.name ∉ vs.map Variable.name := by
    rw [← not_iff_not, not_not, Option.eq_none_iff_forall_ne_some]
    constructor
    · intro h
      obtain ⟨s, hs⟩ := not_forall_not.1 h
      obtain ⟨w, hw, hname, -⟩ := ht.exists_variable hs
      exact List.mem_map.2 ⟨w, hw, hname.symm⟩
    · intro h hnone
      obtain ⟨w, hw, hname⟩ := List.mem_map.1 h
      obtain ⟨s, hs, -⟩ := ht.find?_of_mem hw
      exact hnone s (hname ▸ hs)
  simp only [declare_eq_ok_iff, hsize, hfind]
  simp

/-- The splits of a list at an element: at the first, or at another with the first before it. -/
theorem forall_split_cons_iff {α : Type} {P : List α → α → Prop} {x : α} {xs : List α} :
    (∀ before y after, x :: xs = before ++ y :: after → P before y) ↔
      P [] x ∧ ∀ before y after, xs = before ++ y :: after → P (x :: before) y := by
  simp only [List.cons_eq_append_iff]
  constructor
  · intro h
    exact ⟨h [] x xs (.inl ⟨rfl, rfl⟩), fun before y after hxs => h (x :: before) y after (.inr ⟨before, rfl, hxs⟩)⟩
  · rintro ⟨hx, hxs⟩ _ y after (⟨rfl, h⟩ | ⟨before, rfl, h⟩)
    · cases h
      exact hx
    · exact hxs before y after h

section

variable {functions : List Function} (hn : (functions.map Function.name).Nodup)
include hn

/-- A declaration can be entered exactly if its name is new and its initial value has the declared type. -/
theorem Declaration.exists_enter_iff {vs : List Variable} {t : SymbolTable} (ht : SymbolTable.Declared vs t)
    {d : Declaration} (hd : d.WellFormed L) : (∃ t', d.enter ⟨functions.map Function.entry⟩ t = .ok t') ↔
      d.name ∉ vs.map Variable.name ∧ ∀ e, d.init = some e → e.HasType ⟨vs, functions⟩ d.type := by
  have hinit : (∀ e, d.init = some e → e.typeOf ⟨t, ⟨functions.map Function.entry⟩⟩ = .ok d.type) ↔
      ∀ e, d.init = some e → e.HasType ⟨vs, functions⟩ d.type :=
    forall₂_congr fun e he => Expr.typeOf_eq_ok_iff (ht.standsFor hn) (hd.init e he)
  simp only [enter, check_bind_eq_ok_iff, DeclItem.checkInit_eq_ok_iff, hinit, exists_and_left,
    ht.exists_declare_iff (v := d.toVariable) hd.type]
  exact and_comm

/-- Declarations can be entered one after the other exactly if no name comes twice, and the initial value of each has
the declared type where only the ones before it are declared. -/
theorem Declaration.exists_foldlM_enter_iff {ds : List Declaration} (hds : ∀ d ∈ ds, d.WellFormed L)
    {vs : List Variable} {t : SymbolTable} (ht : SymbolTable.Declared vs t) :
    (∃ t', ds.foldlM (Declaration.enter ⟨functions.map Function.entry⟩) t = .ok t') ↔
      (vs.map Variable.name ++ ds.map (·.name)).Nodup ∧
      ∀ before (d : Declaration) after, ds = before ++ d :: after → ∀ e, d.init = some e →
        e.HasType ⟨vs ++ before.map Declaration.toVariable, functions⟩ d.type := by
  induction ds generalizing vs t with
  | nil => simp [ht.nodup_names, pure, Except.pure]
  | cons d rest ih =>
    rw [List.forall_mem_cons] at hds
    rw [forall_split_cons_iff (P := fun (before : List Declaration) (d : Declaration) => ∀ e : Expr, d.init = some e →
      e.HasType ⟨vs ++ before.map Declaration.toVariable, functions⟩ d.type)]
    simp only [List.map_nil, List.append_nil, List.map_cons]
    rw [List.append_cons (vs.map Variable.name)]
    constructor
    · rintro ⟨t', h⟩
      rw [List.foldlM_cons, bind_eq_ok_iff] at h
      obtain ⟨u, hu, h⟩ := h
      obtain ⟨-, hinit⟩ := (exists_enter_iff hn ht hds.1).1 ⟨u, hu⟩
      obtain ⟨-, -, hdeclare⟩ := bind_eq_ok_iff.1 hu
      obtain ⟨hnames, hinits⟩ := (ih hds.2 (ht.snoc hdeclare)).1 ⟨t', h⟩
      exact ⟨by simpa using hnames, hinit, by simpa using hinits⟩
    · rintro ⟨hnames, hinit, hinits⟩
      have hnew : d.name ∉ vs.map Variable.name := by
        have hfirst := hnames.of_append_left
        rw [← List.concat_eq_append, List.nodup_concat] at hfirst
        exact hfirst.1
      obtain ⟨u, hu⟩ := (exists_enter_iff hn ht hds.1).2 ⟨hnew, hinit⟩
      obtain ⟨-, -, hdeclare⟩ := bind_eq_ok_iff.1 hu
      obtain ⟨t', h⟩ := (ih hds.2 (ht.snoc hdeclare)).2 ⟨by simpa using hnames, by simpa using hinits⟩
      exact ⟨t', by rw [List.foldlM_cons, bind_eq_ok_iff]; exact ⟨u, hu, h⟩⟩

/-- A well-formed function is accepted exactly if it is well typed. -/
theorem Function.exists_analyze_iff {f : Function} (hw : f.WellFormed L) :
    (∃ c, f.analyze ⟨functions.map Function.entry⟩ = .ok c) ↔ f.WellTyped functions := by
  have htable := Declaration.exists_foldlM_enter_iff hn (wellFormed_declarations hw) .nil
  rw [← locals_eq_foldlM hw] at htable
  have hbody {table : SymbolTable} (h : f.locals ⟨functions.map Function.entry⟩ = .ok table) :
      Stmt.checkAll (f.place ⟨table, ⟨functions.map Function.entry⟩⟩) f.body = .ok () ↔
        ∀ s ∈ f.body, s.WellTyped ⟨f.declarations.map Declaration.toVariable, functions⟩ f.result := by
    have hs := (declared_of_locals h).standsFor hn
    rw [← map_toVariable_declarations] at hs
    rw [Stmt.checkAll_eq_ok_iff]
    exact forall₂_congr fun s hm => Stmt.check_eq_ok_iff hs (hw.body s hm)
  constructor
  · rintro ⟨c, h⟩
    obtain ⟨-, hlocals, hc⟩ := analyze_eq_ok h
    obtain ⟨hnames, hinits⟩ := htable.1 ⟨_, hlocals⟩
    exact ⟨hnames, hinits, (hbody hlocals).1 hc⟩
  · intro h
    obtain ⟨table, hlocals⟩ := htable.2 ⟨h.names, h.inits⟩
    refine ⟨⟨f, table⟩, ?_⟩
    rw [analyze, hlocals]
    exact check_bind_eq_ok_iff.2 ⟨(hbody hlocals).2 h.body, rfl⟩

end

/-! ### Programs -/

private theorem exists_forall₂ {α β : Type} {R : α → β → Prop} {xs : List α} (h : ∀ x ∈ xs, ∃ y, R x y) :
    ∃ ys, List.Forall₂ R xs ys := by
  induction xs with
  | nil => exact ⟨[], .nil⟩
  | cons x rest ih =>
    rw [List.forall_mem_cons] at h
    obtain ⟨y, hy⟩ := h.1
    obtain ⟨ys, hys⟩ := ih h.2
    exact ⟨y :: ys, .cons hy hys⟩

/-- A program is accepted exactly if its global table exists and each of its functions is accepted with it. -/
theorem Program.exists_analyze_iff {p : Program} : (∃ c, p.analyze.2 = .ok c) ↔
    ∃ globals, p.globals = .ok globals ∧ ∀ f ∈ p.functions, ∃ c, f.analyze globals = .ok c := by
  constructor
  · rintro ⟨c, h⟩
    obtain ⟨-, hg, hf⟩ := Program.analyze_eq_ok h
    refine ⟨c.globals, hg, forall_mem_of_forall₂ hf.flip (fun _ _ => trivial) ?_⟩
    exact fun c' _ f _ ha => ⟨c', ha⟩
  · rintro ⟨globals, hg, hf⟩
    obtain ⟨cs, hcs⟩ := exists_forall₂ hf
    refine ⟨⟨p, globals, cs⟩, ?_⟩
    simp only [Program.analyze, hg, Function.analyzeAll_eq_ok_iff.2 hcs]
    rfl

/-- Analysis accepts exactly the well-typed programs. -/
theorem Program.accepted_iff_wellTyped {text : List Char} {p : Program} (h : Program.load text = .ok p) :
    (∃ c, p.analyze.2 = .ok c) ↔ p.WellTyped := by
  have hw := Program.wellFormed_of_load h
  have hf (hn : (p.functions.map Function.name).Nodup) :
      (∀ f ∈ p.functions, ∃ c, f.analyze ⟨p.functions.map Function.entry⟩ = .ok c) ↔
        ∀ f ∈ p.functions, f.WellTyped p.functions :=
    forall₂_congr fun f hm => Function.exists_analyze_iff hn (hw.functions f hm)
  simp only [Program.exists_analyze_iff, Program.globals_eq_ok_iff hw, and_assoc, exists_and_left, exists_eq_left]
  constructor
  · rintro ⟨hn, h⟩
    exact ⟨hn, (hf hn).1 h⟩
  · rintro ⟨hn, h⟩
    exact ⟨hn, (hf hn).2 h⟩

/-- Two functions that call each other. The result of the first adds a variable of an inner block to a number. -/
def mutualCalls : List Char :=
  "(program
    (func f real [(param inteiro n)]
      [(if (relational \"<\" n 2) [(decl real y (init x (call g [n y])))]) (return (binary \"+\" x n))])
    (func g real [(param inteiro k) (param real z)] [(return (call f [k]))]))".toList

/-- A variable whose initial value is the variable itself. -/
def selfInitialized : List Char := "(program (func f [] [(decl inteiro (init x x))]))".toList

theorem mutualCalls_wellTyped_selfInitialized_not :
    (∃ p c, Program.load mutualCalls = .ok p ∧ p.analyze.2 = .ok c ∧ p.WellTyped) ∧
      ∃ p, Program.load selfInitialized = .ok p ∧ (∀ c, p.analyze.2 ≠ .ok c) ∧ ¬ p.WellTyped := by
  constructor
  · obtain ⟨p, hp, h⟩ : ∃ p, Program.load mutualCalls = .ok p ∧ p.analyze.2.toBool = true := by
      apply exists_of_literal
      decide +kernel
    cases ha : p.analyze.2 with
    | error failure => simp [ha, Except.toBool] at h
    | ok c => exact ⟨p, c, hp, ha, (Program.accepted_iff_wellTyped hp).1 ⟨c, ha⟩⟩
  · obtain ⟨p, hp, h⟩ : ∃ p, Program.load selfInitialized = .ok p ∧ p.analyze.2.toBool = false := by
      apply exists_of_literal
      decide +kernel
    have hno (c : Compilation) (hc : p.analyze.2 = .ok c) : False := by simp [hc, Except.toBool] at h
    exact ⟨p, hp, hno, fun ht => ((Program.accepted_iff_wellTyped hp).2 ht).elim hno⟩

end Arvore
