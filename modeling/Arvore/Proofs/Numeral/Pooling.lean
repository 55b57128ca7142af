import Mathlib
import Arvore.Code.Expr
import Arvore.Proofs.Assembly.Requests
import Arvore.Proofs.Numeral.Written

/-!
# Number literals are pooled by value

A number literal is loaded as an immediate operand if it is an integer of 32 bits. Wider integers are pooled under the
digits of their value and reals under the shortest text of theirs, so two literals share a label exactly if they stand
for the same number (`literals_pooled_by_value`). Zero with a sign is another number than zero without.
-/

namespace Arvore

open Assembly

/-! ### What a literal stands for -/

/-- The literal is an integer, with this value. -/
def IsInteger (text : String) (v : Int) : Prop :=
  ∃ sign whole, Numeral.Spells text.toList sign whole [] [] ∧ Numeral.signedValue sign whole = v

/-- The literal is a real, and it is rounded to this number. -/
def IsReal (text : String) (x : Binary64) : Prop :=
  (∃ sign whole fraction power, Numeral.Spells text.toList sign whole fraction power ∧ (fraction ≠ [] ∨ power ≠ [])) ∧
    Real.read text.toList = .ok x

/-- Two literals stand for the same number: the same integer, or the same real with the same sign. -/
inductive SameNumber (text text' : String) : Prop
  | integer {v : Int} (h : IsInteger text v) (h' : IsInteger text' v) : SameNumber text text'
  | real {x x' : Binary64} (h : IsReal text x) (h' : IsReal text' x') (hsign : x.negative = x'.negative)
      (hvalue : x.absolute = x'.absolute) : SameNumber text text'

/-- The code that loads an immediate operand. -/
def immediateCode (v : Int) : Listing := instrs [.mov .quad (.imm v) (.reg .rax)]

/-- The code that loads what stands under a label. -/
def pooledCode (l : Label) : Listing := instrs [.mov .quad (.data l) (.reg .rax)]

/-- The code loads a literal of this category and this text, which is in the pool afterwards under its label. -/
def Pools (category payload : String) (p : Pool) (code : Listing) (q : Pool) : Prop :=
  ∃ l, p.intern category payload = (l, q) ∧ l.category = category ∧ ⟨payload, l⟩ ∈ q.literals ∧ code = pooledCode l

namespace Numeral

theorem isIntegral_of_spells {text : String} {sign whole : List Char} (h : Spells text.toList sign whole [] []) :
    isIntegral text = true := by
  have hsign : Decimal.takeSign (sign ++ (whole ++ [])) = _ := Decimal.takeSign_append h.sign h.whole
  rw [isIntegral, h.dropLineEnd, h.text_eq, List.append_nil, hsign, List.append_nil]
  exact isDigits_iff.2 h.whole

theorem integer?_of_spells {text : String} {sign whole : List Char} (h : Spells text.toList sign whole [] []) :
    integer? text = if fits 64 (signedValue sign whole) then some (signedValue sign whole) else none := by
  have hsign : Decimal.takeSign (sign ++ (whole ++ [])) = _ := Decimal.takeSign_append h.sign h.whole
  rw [integer?, h.text_eq, List.append_nil, hsign, List.append_nil]
  dsimp only
  rw [isDigits_iff.2 h.whole, if_pos rfl, signedValue]
  by_cases hminus : sign = ['-'] <;> simp [hminus]

end Numeral

theorem IsInteger.integer? {text : String} {v : Int} (h : IsInteger text v) :
    Numeral.isIntegral text = true ∧ Numeral.integer? text = if Numeral.fits 64 v then some v else none := by
  obtain ⟨sign, whole, hspells, rfl⟩ := h
  exact ⟨Numeral.isIntegral_of_spells hspells, Numeral.integer?_of_spells hspells⟩

theorem IsInteger.eq_of_integer? {text : String} {v z : Int} (h : IsInteger text v)
    (hz : Numeral.integer? text = some z) : v = z := by
  rw [h.integer?.2, Option.ite_none_right_eq_some] at hz
  exact Option.some.inj hz.2

theorem IsReal.isIntegral {text : String} {x : Binary64} (h : IsReal text x) : Numeral.isIntegral text = false := by
  obtain ⟨⟨sign, whole, fraction, power, hspells, hreal⟩, -⟩ := h
  exact Numeral.not_isIntegral_of_spells hspells hreal

theorem IsReal.isLiteral {text : String} {x : Binary64} (h : IsReal text x) : Numeral.isLiteral text = true := by
  obtain ⟨⟨sign, whole, fraction, power, hspells, -⟩, -⟩ := h
  exact Numeral.isLiteral_of_spells hspells

theorem IsReal.not_isInteger {text : String} {x : Binary64} {v : Int} (h : IsReal text x) : ¬IsInteger text v := by
  intro hinteger
  have hintegral := hinteger.integer?.1
  rw [h.isIntegral] at hintegral
  cases hintegral

/-- The two sorts of literals that are accepted. -/
theorem integer_or_real {line : Nat} {text : String} (h : Load.checkNumber line text = .ok ()) :
    (∃ v, IsInteger text v ∧ Numeral.integer? text = some v) ∨ ∃ x, IsReal text x := by
  cases Numeral.isNumber_of_representable (Load.checkNumber_eq_ok h) with
  | integral hspells low high =>
    refine .inl ⟨_, ⟨_, _, hspells, rfl⟩, ?_⟩
    rw [Numeral.integer?_of_spells hspells, if_pos (Numeral.fits_iff.2 ⟨low, high⟩)]
  | real hspells hreal hx hf => exact .inr ⟨_, ⟨_, _, _, _, hspells, hreal⟩, hx⟩

/-! ### The code of a literal -/

theorem emits_pooled {category payload : String} {p q : Pool} {code : Listing} :
    (Gen.intern category payload >>= fun label => pure (pooledCode label) : Gen Listing).Emits p code q ↔
      Pools category payload p code q := by
  simp only [Gen.emits_bind, Gen.emits_intern, Gen.emits_pure, Pools]
  constructor
  · rintro ⟨l, r, ⟨rfl, rfl⟩, rfl, rfl⟩
    obtain ⟨hcategory, hmem⟩ := p.mem_literals_intern category payload
    exact ⟨_, rfl, hcategory, hmem, rfl⟩
  · rintro ⟨l, heq, -, -, rfl⟩
    rw [heq]
    exact ⟨l, q, ⟨rfl, rfl⟩, rfl, rfl⟩

section Code

variable {text : String} {p q : Pool} {code : Listing}

theorem emits_integer {v : Int} (hi : Numeral.isIntegral text = true) (hv : Numeral.integer? text = some v) :
    (Numeral.code text).Emits p code q ↔
      Numeral.fits 32 v = true ∧ code = immediateCode v ∧ q = p ∨
      Numeral.fits 32 v = false ∧ Pools Category.int (toString v) p code q := by
  have himmediate : Numeral.immediate? text = if Numeral.fits 32 v then some v else none := by
    rw [Numeral.immediate?, if_pos hi, hv, Option.filter_some]
  unfold Numeral.code
  rw [hi, himmediate]
  cases hf : Numeral.fits 32 v with
  | true => simp [immediateCode]
  | false =>
    simp only [hv, Bool.not_true, Bool.false_eq_true, if_false, false_and, false_or, true_and]
    exact emits_pooled

theorem realPayload_of_read {x : Binary64} (hx : Real.read text.toList = .ok x) :
    realPayload text = .ok (String.ofList (Real.literal x)) := by
  rw [realPayload, hx]

theorem emits_real {x : Binary64} (hi : Numeral.isIntegral text = false) (hx : Real.read text.toList = .ok x) :
    (Numeral.code text).Emits p code q ↔ Pools Category.float (String.ofList (Real.literal x)) p code q := by
  rw [← emits_pooled, Numeral.code, hi, realPayload_of_read hx]
  rfl

end Code

/-- The text that a real is pooled under is a literal for the same real. -/
theorem isReal_literal {text : String} {x : Binary64} (h : IsReal text x) :
    IsReal (String.ofList (Real.literal x)) x := by
  have hn := Real.normal_of_read h.2
  obtain ⟨body, q, htext, hwritten, -⟩ := Real.literal_written hn
  obtain ⟨whole, fraction, power, hspells, hreal⟩ := hwritten.spells x.negative
  rw [← htext] at hspells
  unfold IsReal
  rw [String.toList_ofList]
  exact ⟨⟨_, whole, fraction, power, hspells, hreal⟩, Real.read_literal hn⟩

/-! ### Sharing -/

/-- What a literal is pooled under. -/
inductive HasKey (text : String) : String → String → Prop
  | integer {v : Int} (h : IsInteger text v) (hv : Numeral.integer? text = some v) :
      HasKey text Category.int (toString v)
  | real {x : Binary64} (h : IsReal text x) : HasKey text Category.float (String.ofList (Real.literal x))

/-- A literal that is loaded from the pool was asked for under its key. -/
theorem hasKey_of_emits {line : Nat} {text : String} (h : Load.checkNumber line text = .ok ()) {p q : Pool} {l : Label}
    (he : (Numeral.code text).Emits p (pooledCode l) q) :
    ∃ category payload, HasKey text category payload ∧ p.intern category payload = (l, q) := by
  have hlabel : ∀ {l'}, pooledCode l = pooledCode l' → l = l' := by
    intro l' heq
    simpa [pooledCode, instrs] using heq
  rcases integer_or_real h with ⟨v, hinteger, hv⟩ | ⟨x, hreal⟩
  · rcases (emits_integer hinteger.integer?.1 hv).1 he with ⟨-, hcode, -⟩ | ⟨-, l', hl', -, -, hcode⟩
    · simp [pooledCode, immediateCode, instrs] at hcode
    · rw [hlabel hcode]
      exact ⟨_, _, .integer hinteger hv, hl'⟩
  · obtain ⟨l', hl', -, -, hcode⟩ := (emits_real hreal.isIntegral hreal.2).1 he
    rw [hlabel hcode]
    exact ⟨_, _, .real hreal, hl'⟩

/-- The digits of a value of 64 bits stand for no other value. -/
theorem toString_inj_of_integer? {text text' : String} {v v' : Int} (hv : Numeral.integer? text = some v)
    (hv' : Numeral.integer? text' = some v') (h : toString v = toString v') : v = v' := by
  have hread := Numeral.integer?_toString (Numeral.fits_iff.2 (Numeral.integer?_bounds hv))
  have hread' := Numeral.integer?_toString (Numeral.fits_iff.2 (Numeral.integer?_bounds hv'))
  rw [h, hread'] at hread
  exact (Option.some.inj hread).symm

/-- The text of a real stands for no other real. -/
theorem literal_inj_of_isReal {text text' : String} {x x' : Binary64} (hx : IsReal text x) (hx' : IsReal text' x')
    (h : String.ofList (Real.literal x) = String.ofList (Real.literal x')) : x = x' := by
  have hread := (isReal_literal hx).2
  rw [h, (isReal_literal hx').2] at hread
  exact (Except.ok.inj hread).symm

/-- Literals have the same key exactly if they stand for the same number. -/
theorem key_eq_iff {text text' category category' payload payload' : String} (h : HasKey text category payload)
    (h' : HasKey text' category' payload') :
    category = category' ∧ payload = payload' ↔ SameNumber text text' := by
  have hcategory : Category.int ≠ Category.float := by decide +kernel
  cases h with
  | integer hinteger hv =>
    cases h' with
    | integer hinteger' hv' =>
      constructor
      · rintro ⟨-, hpayload⟩
        obtain rfl := toString_inj_of_integer? hv hv' hpayload
        exact .integer hinteger hinteger'
      · intro hsame
        cases hsame with
        | integer hw hw' =>
          obtain rfl := hw.eq_of_integer? hv
          obtain rfl := hw'.eq_of_integer? hv'
          exact ⟨rfl, rfl⟩
        | real hx => exact absurd hinteger hx.not_isInteger
    | real hreal' =>
      refine ⟨fun heq => absurd heq.1 hcategory, fun hsame => ?_⟩
      cases hsame with
      | integer _ hw' => exact absurd hw' hreal'.not_isInteger
      | real hx => exact absurd hinteger hx.not_isInteger
  | real hreal =>
    cases h' with
    | integer hinteger' hv' =>
      refine ⟨fun heq => absurd heq.1.symm hcategory, fun hsame => ?_⟩
      cases hsame with
      | integer hw => exact absurd hw hreal.not_isInteger
      | real _ hx' => exact absurd hinteger' hx'.not_isInteger
    | real hreal' =>
      constructor
      · rintro ⟨-, hpayload⟩
        obtain rfl := literal_inj_of_isReal hreal hreal' hpayload
        exact .real hreal hreal' rfl rfl
      · intro hsame
        cases hsame with
        | integer hw => exact absurd hw hreal.not_isInteger
        | real hy hy' hsign hvalue =>
          obtain rfl := Except.ok.inj (hreal.2.symm.trans hy.2)
          obtain rfl := Except.ok.inj (hreal'.2.symm.trans hy'.2)
          have heq := Binary64.eq_of_absolute_eq (Real.normal_of_read hy.2) (Real.normal_of_read hy'.2) hsign hvalue
          rw [heq]
          exact ⟨rfl, rfl⟩

/-- Number literals are pooled by value. An integer of 32 bits is an immediate operand, and a wider one is pooled under
its digits. A real is pooled under a text that is again a literal of the same real, and that is left as it is when it is
pooled itself. Whatever is asked of the pool before and between, two literals are loaded from the same label exactly if
they stand for the same number. -/
theorem literals_pooled_by_value {line : Nat} {text : String} (h : Load.checkNumber line text = .ok ()) :
    ((∃ v, IsInteger text v) ∨ ∃ x, IsReal text x) ∧
    (∀ v, IsInteger text v → ∀ p code q, (Numeral.code text).Emits p code q ↔
      (-2 ^ 31 ≤ v ∧ v < 2 ^ 31) ∧ code = immediateCode v ∧ q = p ∨
      ¬(-2 ^ 31 ≤ v ∧ v < 2 ^ 31) ∧ Pools Category.int (toString v) p code q) ∧
    (∀ x, IsReal text x → ∃ payload, realPayload text = .ok payload ∧ Numeral.isLiteral payload = true ∧
      Numeral.isIntegral payload = false ∧ IsReal payload x ∧ realPayload payload = .ok payload ∧
      ∀ p code q, (Numeral.code text).Emits p code q ↔ Pools Category.float payload p code q) ∧
    ∀ {line' text'}, Load.checkNumber line' text' = .ok () → ∀ before between {l l' q s},
      (Numeral.code text).Emits (Pool.after {} before) (pooledCode l) q →
      (Numeral.code text').Emits (q.after between) (pooledCode l') s → (l = l' ↔ SameNumber text text') := by
  refine ⟨?_, ?_, ?_, ?_⟩
  · rcases integer_or_real h with ⟨v, hinteger, -⟩ | hreal
    · exact .inl ⟨v, hinteger⟩
    · exact .inr hreal
  · intro v hinteger p code q
    rcases integer_or_real h with ⟨z, -, hz⟩ | ⟨x, hx⟩
    · obtain rfl := hinteger.eq_of_integer? hz
      rw [emits_integer hinteger.integer?.1 hz, ← Bool.not_eq_true, Numeral.fits_iff]
    · exact absurd hinteger hx.not_isInteger
  · intro x hx
    have hliteral := isReal_literal hx
    exact ⟨_, realPayload_of_read hx.2, hliteral.isLiteral, hliteral.isIntegral, hliteral,
      realPayload_of_read hliteral.2, fun p code q => emits_real hx.isIntegral hx.2⟩
  · intro line' text' h' before between l l' q s he he'
    obtain ⟨category, payload, hkey, hl⟩ := hasKey_of_emits h he
    obtain ⟨category', payload', hkey', hl'⟩ := hasKey_of_emits h' he'
    have hshare := (Pool.Tidy.empty.after before).intern_eq_iff category payload between category' payload'
    rw [hl] at hshare
    dsimp only at hshare
    rw [hl'] at hshare
    rw [← key_eq_iff hkey hkey']
    exact hshare

namespace Spellings

/-- The pool after a real that was written as `payload`. -/
def pool (payload : String) : Pool := ⟨[("float", 1)], [⟨payload, ⟨"float", 1⟩⟩]⟩

/-- The pool after two reals. -/
def pool₂ (payload payload' : String) : Pool :=
  ⟨[("float", 2)], [⟨payload, ⟨"float", 1⟩⟩, ⟨payload', ⟨"float", 2⟩⟩]⟩

theorem accepted :
    Load.checkNumber 1 "1e2" = .ok () ∧ Load.checkNumber 1 "+0100.0" = .ok () ∧
    Load.checkNumber 1 "0.0" = .ok () ∧ Load.checkNumber 1 "-0.0" = .ok () := by
  decide +kernel

theorem runs :
    (Numeral.code "1e2").run {} = .ok (pooledCode ⟨"float", 1⟩, pool "100.0") ∧
    (Numeral.code "+0100.0").run (pool "100.0") = .ok (pooledCode ⟨"float", 1⟩, pool "100.0") ∧
    (Numeral.code "0.0").run {} = .ok (pooledCode ⟨"float", 1⟩, pool "0.0") ∧
    (Numeral.code "-0.0").run (pool "0.0") = .ok (pooledCode ⟨"float", 2⟩, pool₂ "0.0" "-0.0") := by
  decide +kernel

end Spellings

theorem hundreds_share_label_zeros_do_not :
    Load.checkNumber 1 "1e2" = .ok () ∧ Load.checkNumber 1 "+0100.0" = .ok () ∧ SameNumber "1e2" "+0100.0" ∧
    Load.checkNumber 1 "0.0" = .ok () ∧ Load.checkNumber 1 "-0.0" = .ok () ∧ ¬SameNumber "0.0" "-0.0" := by
  obtain ⟨h, h', hzero, hzero'⟩ := Spellings.accepted
  obtain ⟨hrun, hrun', hrunZero, hrunZero'⟩ := Spellings.runs
  obtain ⟨-, -, -, hshare⟩ := literals_pooled_by_value h
  obtain ⟨-, -, -, hapart⟩ := literals_pooled_by_value hzero
  refine ⟨h, h', (hshare h' [] [] hrun hrun').1 rfl, hzero, hzero', fun hsame => ?_⟩
  have hlabels := (hapart hzero' [] [] hrunZero hrunZero').2 hsame
  exact absurd hlabels (by decide)

end Arvore
