import Mathlib
import Arvore.Proofs.Analysis.Accepted
import Arvore.Proofs.Code.Labels
import Arvore.Proofs.Machine.Run

/-!
# Functions in a listing

The code of a function is a head, which makes the frame and copies the arguments into it, and a body, which ends by
leaving the function. In the listing of an accepted program the code of every function stands in one piece. Jumps in it
lead to its own labels, and calls of the function lead to its entry (`Compilation.exists_stands`).
-/

namespace Arvore

open Assembly Machine

/-! ### Head and body -/

namespace Function

/-- The code of a function up to its statements: it makes the frame and copies the arguments into it. -/
def headCode (align : Bool) (scope : Scope) (f : Function) : Except Fault Listing := do
  let spill ← Param.spillCodes ⟨f.name, scope⟩ 0 f.params
  return [.global f.name, .entry f.name] ++ (instrs [.push (.reg .rbp), .mov .quad (.reg .rsp) (.reg .rbp)] ++
    (reserveCode (reservation align scope.locals.frameSize) ++ spill))

/-- The code of the statements of a function. It leaves the function at the end, unless the last statement does. -/
def bodyCode (scope : Scope) (f : Function) : Gen Listing := do
  let body ← Stmt.codes ⟨f.name, scope⟩ f.body
  return body ++ if (f.body.getLast?.map Stmt.isReturn).getD false then [] else leaveCode

variable {align : Bool} {scope : Scope} {f : Function} {p q : Pool} {code : Listing}

theorem emits_code : (f.code align scope).Emits p code q ↔
    ∃ head body, f.headCode align scope = .ok head ∧ (f.bodyCode scope).Emits p body q ∧ code = head ++ body := by
  simp only [Function.code, headCode, bodyCode, Gen.emits_bind, Gen.emits_lift, Gen.emits_pure, bind_eq_ok_iff]
  constructor
  · rintro ⟨spill, _, ⟨hs, rfl⟩, body, _, hb, rfl, rfl⟩
    exact ⟨_, _, ⟨spill, hs, rfl⟩, ⟨body, _, hb, rfl, rfl⟩, by simp only [List.append_assoc]⟩
  · rintro ⟨_, _, ⟨spill, hs, ⟨⟩⟩, ⟨body, _, hb, rfl, rfl⟩, rfl⟩
    exact ⟨spill, _, ⟨hs, rfl⟩, body, _, hb, by simp only [List.append_assoc], rfl⟩

end Function

theorem Symbol.local_spillCode {s : Symbol} {position : Nat} {code : Listing} (h : s.spillCode position = .ok code) :
    code.all Line.isLocal = true := by
  unfold Symbol.spillCode at h
  split at h
  · exact Symbol.local_storeFrom rfl h
  · obtain ⟨stored, hs, h⟩ := bind_eq_ok_iff.1 h
    cases h
    rw [List.all_append, Symbol.local_storeFrom rfl hs]
    rfl

theorem Param.local_spillCodes {target : Target} {params : List Param} {position : Nat} {code : Listing}
    (h : Param.spillCodes target position params = .ok code) : code.all Line.isLocal = true := by
  induction params generalizing position code with
  | nil =>
    cases h
    rfl
  | cons p rest ih =>
    simp only [Param.spillCodes, bind_eq_ok_iff] at h
    obtain ⟨s, -, first, hf, others, ho, h⟩ := h
    cases h
    rw [List.all_append, Symbol.local_spillCode hf, ih ho]
    rfl

/-- The head of a function is its entry and straight code. -/
theorem Function.headCode_cases {align : Bool} {scope : Scope} {f : Function} {head : Listing}
    (h : f.headCode align scope = .ok head) :
    ∃ code : Listing, head = [.global f.name, .entry f.name] ++ code ∧ code.all Line.isLocal = true := by
  obtain ⟨spill, hs, h⟩ := bind_eq_ok_iff.1 h
  cases h
  refine ⟨_, rfl, ?_⟩
  have hreserve : ∀ size, (reserveCode size).all Line.isLocal = true := by
    intro size
    unfold reserveCode
    split <;> rfl
  rw [List.all_append, List.all_append, hreserve, Param.local_spillCodes hs]
  rfl

theorem Function.marks_headCode {align : Bool} {scope : Scope} {f : Function} {head : Listing}
    (h : f.headCode align scope = .ok head) : marks head = [.global f.name, .entry f.name] := by
  obtain ⟨code, rfl, hcode⟩ := Function.headCode_cases h
  rw [marks_append, (labels_of_local hcode).2.2.2]
  rfl

/-- The categories of the labels that a function draws. -/
def Function.drawn (f : Function) : List String := Stmt.drawnAll f.body

/-- The literals that a function needs, each as often as it stands there. -/
def Function.pooled (f : Function) : List (String × String) := Stmt.pooledAll f.body

theorem Function.linked_of_bodyCode {scope : Scope} {f : Function} {p q : Pool} {code : Listing}
    (h : (f.bodyCode scope).Emits p code q) : Linked p f.drawn f.pooled code q := by
  simp only [bodyCode, Gen.emits_bind, Gen.emits_pure] at h
  obtain ⟨body, _, hb, rfl, rfl⟩ := h
  refine (Stmt.linked_of_codes (fun s _ => Stmt.linked_of_emits) hb).append_local ?_
  split <;> rfl

/-! ### Where a line is found -/

theorem idxOf?_append_cons {α : Type} [BEq α] [LawfulBEq α] {x : α} {before : List α} (h : x ∉ before)
    (after : List α) : (before ++ x :: after).idxOf? x = some before.length := by
  induction before with
  | nil => simp [List.idxOf?_cons]
  | cons y rest ih =>
    simp only [List.mem_cons, not_or] at h
    have hy : (y == x) = false := beq_false_of_ne (Ne.symm h.1)
    simp [List.idxOf?_cons, hy, ih h.2]

/-- Code stands where it was put if its labels are found nowhere before. -/
theorem placed_of_nodup {before code after : Listing} {data : Label → Word} (hn : (marks code).Nodup)
    (hb : ∀ l, .label l ∈ code → .label l ∉ before) :
    Placed ⟨before ++ (code ++ after), data⟩ before.length code := by
  refine ⟨fun i hi => ?_, fun i l h => ?_⟩
  · rw [List.getElem?_append_right (by omega), Nat.add_sub_cancel_left, List.getElem?_append_left hi]
  · obtain ⟨hi, hl⟩ := List.getElem?_eq_some_iff.1 h
    have hcode : code = code.take i ++ .label l :: code.drop (i + 1) := by
      rw [← hl, List.cons_getElem_drop_succ, List.take_append_drop]
    have hm : Line.label l ∈ code := hl ▸ List.getElem_mem hi
    have hnot : .label l ∉ before ++ code.take i := by
      rw [List.mem_append, not_or]
      refine ⟨hb l hm, fun ht => ?_⟩
      rw [hcode, marks_append] at hn
      have hmarked : Line.label l ∈ marks (code.take i) := List.mem_filter.2 ⟨ht, rfl⟩
      exact List.disjoint_of_nodup_append hn hmarked (by simp [marks])
    have hfound := idxOf?_append_cons hnot (code.drop (i + 1) ++ after)
    rw [List.length_append, List.length_take_of_le hi.le] at hfound
    rw [← hfound]
    conv_lhs => rw [hcode]
    simp only [List.append_assoc, List.cons_append]

/-! ### The listing of a program -/

theorem intercalate_append_cons {α : Type} (sep : List α) (before : List (List α)) (x : List α)
    (after : List (List α)) :
    sep.intercalate (before ++ x :: after) = before.flatMap (· ++ sep) ++ (x ++ after.flatMap (sep ++ ·)) := by
  induction before with
  | nil =>
    induction after generalizing x with
    | nil => simp [List.intercalate]
    | cons y rest ih =>
      rw [List.nil_append, List.intercalate_cons_cons, ← List.nil_append (y :: rest), ih]
      simp
  | cons y rest ih =>
    obtain ⟨z, others, h⟩ := List.exists_cons_of_ne_nil (show rest ++ x :: after ≠ [] by simp)
    rw [List.cons_append, h, List.intercalate_cons_cons, ← h, ih]
    simp

/-- The names of the functions of an accepted program differ. -/
theorem Program.nodup_names {p : Program} {globals : SymbolTable} (h : p.globals = .ok globals) :
    (p.functions.map Function.name).Nodup := by
  have key : ∀ (fs : List Function) (t t' : SymbolTable), fs.foldlM Function.define t = .ok t' →
      (t.entries.map Prod.fst).Nodup → (t.entries.map Prod.fst ++ fs.map Function.name).Nodup := by
    intro fs
    induction fs with
    | nil => simp
    | cons f rest ih =>
      intro t t' h hn
      rw [List.foldlM_cons] at h
      obtain ⟨u, hu, h⟩ := bind_eq_ok_iff.1 h
      obtain ⟨s, -, hu⟩ := bind_eq_ok_iff.1 hu
      obtain ⟨hnone, rfl⟩ := SymbolTable.define_eq_ok_iff.1 (mapError_eq_ok_iff.1 hu)
      have hnew : f.name ∉ t.entries.map Prod.fst := by
        intro hm
        obtain ⟨⟨name, s⟩, hm, rfl⟩ := List.mem_map.1 hm
        have hne := List.lookup_eq_none_iff.1 hnone _ hm
        simp at hne
      have hnext := ih _ _ h (by simpa using hn.append (List.nodup_singleton _) (by simpa using hnew))
      simpa using hnext
  simpa using key p.functions {} globals h .nil

theorem Program.nodup_names_of_analyze {p : Program} {c : Compilation} (h : p.analyze.2 = .ok c) :
    (c.functions.map (·.function.name)).Nodup := by
  obtain ⟨-, hg, -⟩ := Program.analyze_eq_ok h
  have hnames := Program.nodup_names hg
  rw [← Program.functions_of_analyze h, List.map_map] at hnames
  exact hnames

namespace Compilation

variable {align : Bool} {globals : SymbolTable} {cs : List CheckedFunction} {p q : Pool}

/-- Code is generated for one function after the other. -/
theorem codes_append_cons {c : CheckedFunction} {later : List CheckedFunction} {listings : List Listing}
    (h : (codes align globals (cs ++ c :: later)).Emits p listings q) :
    ∃ first code others r r', (codes align globals cs).Emits p first r ∧
      (c.function.code align ⟨c.locals, globals⟩).Emits r code r' ∧ listings = first ++ code :: others := by
  induction cs generalizing p listings with
  | nil =>
    simp only [List.nil_append, codes, Gen.emits_bind, Gen.emits_pure] at h
    obtain ⟨code, r', hc, others, _, -, rfl, rfl⟩ := h
    exact ⟨[], code, others, p, r', by simp [codes], hc, rfl⟩
  | cons c' rest ih =>
    simp only [List.cons_append, codes, Gen.emits_bind, Gen.emits_pure] at h
    obtain ⟨code', r, hc', others, _, ho, rfl, rfl⟩ := h
    obtain ⟨first, code, others, u, u', hf, hc, rfl⟩ := ih ho
    refine ⟨code' :: first, code, others, u, u', ?_, hc, rfl⟩
    simp only [codes, Gen.emits_bind, Gen.emits_pure]
    exact ⟨code', r, hc', first, u, hf, rfl, rfl⟩

/-- What the lines of some functions are, apart from instructions. -/
theorem marks_of_codes {listings : List Listing} (h : (codes align globals cs).Emits p listings q) :
    (∀ c, p.count c ≤ q.count c) ∧ ∀ code ∈ listings, ∀ line ∈ marks code,
      (∃ l, line = .label l ∧ l.number ≤ q.count l.category) ∨
        ∃ c ∈ cs, line = .global c.function.name ∨ line = .entry c.function.name := by
  induction cs generalizing p listings with
  | nil =>
    simp only [codes, Gen.emits_pure] at h
    obtain ⟨rfl, rfl⟩ := h
    simp
  | cons c rest ih =>
    simp only [codes, Gen.emits_bind, Gen.emits_pure] at h
    obtain ⟨code, r, hc, others, _, ho, rfl, rfl⟩ := h
    obtain ⟨head, body, hh, hb, rfl⟩ := Function.emits_code.1 hc
    have hd := Function.linked_of_bodyCode hb
    obtain ⟨hmono, hmarks⟩ := ih ho
    refine ⟨fun x => (hd.draws.mono x).trans (hmono x), ?_⟩
    rw [List.forall_mem_cons]
    constructor
    · intro line hm
      rw [marks_append, Function.marks_headCode hh, List.mem_append] at hm
      rcases hm with hm | hm
      · exact .inr ⟨c, by simp, by simpa using hm⟩
      · obtain ⟨l, rfl, -, high⟩ := hd.exists_label hm
        exact .inl ⟨l, rfl, high.trans (hmono _)⟩
    · intro code hm line hl
      rcases hmarks code hm line hl with h | ⟨c', hc', h⟩
      · exact .inl h
      · exact .inr ⟨c', List.mem_cons_of_mem _ hc', h⟩

end Compilation

/-- The code of a function stands in a listing, behind the given lines: jumps in it lead to its own labels, and calls of
it lead to its entry. -/
structure Function.Stands (listing before head body : Listing) (f : Function) : Prop where
  line : ∃ after, listing = before ++ (head ++ body ++ after)
  placed : ∀ data, Placed ⟨listing, data⟩ before.length (head ++ body)
  entry : listing.idxOf? (.entry f.name) = some (before.length + 1)

/-- In the listing of an accepted program every function stands somewhere. -/
theorem Compilation.exists_stands {align : Bool} {p : Program} {c : Compilation} (ha : p.analyze.2 = .ok c)
    {listing : Listing} {literals : List Literal} (h : c.generate align = .ok (listing, literals))
    {cf : CheckedFunction} (hm : cf ∈ c.functions) :
    ∃ before head body q r, cf.function.headCode align ⟨cf.locals, c.globals⟩ = .ok head ∧
      (cf.function.bodyCode ⟨cf.locals, c.globals⟩).Emits q body r ∧
      cf.function.Stands listing before head body := by
  obtain ⟨⟨listings, pool⟩, hcodes, h⟩ := bind_eq_ok_iff.1 h
  obtain ⟨data, -, h⟩ := bind_eq_ok_iff.1 h
  cases h
  obtain ⟨earlier, later, hcs⟩ := List.mem_iff_append.1 hm
  rw [hcs] at hcodes
  obtain ⟨first, code, others, q, r, hfirst, hcode, rfl⟩ := Compilation.codes_append_cons hcodes
  obtain ⟨head, body, hh, hb, rfl⟩ := Function.emits_code.1 hcode
  have hd := Function.linked_of_bodyCode hb
  have hmarks := (Compilation.marks_of_codes hfirst).2
  -- the lines in front belong to earlier functions
  have hbefore : ∀ line ∈ Line.textSection :: first.flatMap (· ++ [Line.blank]), line ∈ marks [line] →
      line = .textSection ∨ line = .blank ∨ ∃ code ∈ first, line ∈ marks code := by
    intro line hm hmark
    simp only [List.mem_cons, List.mem_flatMap, List.mem_append, List.not_mem_nil, or_false] at hm
    rcases hm with hm | ⟨code, hc, hm | hm⟩
    · exact .inl hm
    · exact .inr (.inr ⟨code, hc, List.mem_filter.2 ⟨hm, (List.mem_filter.1 hmark).2⟩⟩)
    · exact .inr (.inl hm)
  refine ⟨.textSection :: first.flatMap (· ++ [Line.blank]), head, body, q, r, hh, hb, ?_⟩
  have hlisting : Line.textSection :: [Line.blank].intercalate (first ++ (head ++ body) :: others) ++ .blank :: data =
      (Line.textSection :: first.flatMap (· ++ [Line.blank])) ++
        (head ++ body ++ (others.flatMap ([Line.blank] ++ ·) ++ .blank :: data)) := by
    rw [intercalate_append_cons]
    simp only [List.cons_append, List.append_assoc]
  refine ⟨⟨_, hlisting⟩, fun data => ?_, ?_⟩
  · rw [hlisting]
    refine placed_of_nodup ?_ fun l hl hm => ?_
    · rw [marks_append, Function.marks_headCode hh]
      refine List.Nodup.append (by simp) hd.nodup_marks fun line hl hm => ?_
      obtain ⟨l, rfl, -⟩ := hd.exists_label hm
      simp at hl
    · have hl : Line.label l ∈ marks (head ++ body) := List.mem_filter.2 ⟨hl, rfl⟩
      rw [marks_append, Function.marks_headCode hh] at hl
      have hl : Line.label l ∈ marks body := by simpa using hl
      obtain ⟨_, ⟨⟩, low, -⟩ := hd.exists_label hl
      rcases hbefore _ hm (by simp) with h | h | ⟨code, hc, h⟩
      · cases h
      · cases h
      · rcases hmarks code hc _ h with ⟨_, ⟨⟩, high⟩ | ⟨c', -, h | h⟩
        · omega
        · cases h
        · cases h
  · have hname : Line.entry cf.function.name ∉ Line.textSection :: first.flatMap (· ++ [Line.blank]) := by
      intro hm
      rcases hbefore _ hm (by simp [marks]) with h | h | ⟨code, hc, h⟩
      · cases h
      · cases h
      · rcases hmarks code hc _ h with ⟨_, h, -⟩ | ⟨c', hc', h | h⟩
        · cases h
        · cases h
        · simp only [Line.entry.injEq] at h
          have hnames := Program.nodup_names_of_analyze ha
          rw [hcs, List.map_append, List.map_cons] at hnames
          exact List.disjoint_of_nodup_append hnames (List.mem_map_of_mem hc') (by simp [h])
    obtain ⟨spill, -, hhead⟩ := bind_eq_ok_iff.1 hh
    cases hhead
    rw [hlisting]
    have hnot : Line.entry cf.function.name ∉ (Line.textSection :: first.flatMap (· ++ [Line.blank])) ++
        [Line.global cf.function.name] := by simpa using hname
    simpa using idxOf?_append_cons hnot _

end Arvore
