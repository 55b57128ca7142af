import Mathlib
import Arvore.Code.Gen

/-!
# Steps in sequence

Every pass is a sequence of steps, each of which may fail. A sequence ends well exactly if each step does, given what
the steps before it produced. `bind_eq_ok_iff` says so for plain failures and `Gen.emits_bind` for the generation of
code, where the pool of labels is handed on from step to step. A pass that never blames its caller is `Faultless`: it
may end with a diagnostic, but not with a fault.
-/

namespace Arvore

open Assembly

/-- A sequence ends well exactly if both of its parts do. -/
theorem bind_eq_ok_iff {ε α β : Type} {x : Except ε α} {f : α → Except ε β} {b : β} :
    (x >>= f) = .ok b ↔ ∃ a, x = .ok a ∧ f a = .ok b := by
  cases x <;> simp [bind, Except.bind]

/-- A sequence fails with its first part, or with its second if the first ends well. -/
theorem bind_eq_error_iff {ε α β : Type} {x : Except ε α} {f : α → Except ε β} {e : ε} :
    (x >>= f) = .error e ↔ x = .error e ∨ ∃ a, x = .ok a ∧ f a = .error e := by
  cases x <;> simp [bind, Except.bind]

/-- Renaming the failures of a step does not change when it ends well. -/
theorem mapError_eq_ok_iff {ε ε' α : Type} {x : Except ε α} {f : ε → ε'} {a : α} :
    x.mapError f = .ok a ↔ x = .ok a := by
  cases x <;> simp [Except.mapError]

theorem mapError_eq_error_iff {ε ε' α : Type} {x : Except ε α} {f : ε → ε'} {e : ε'} :
    x.mapError f = .error e ↔ ∃ d, x = .error d ∧ f d = e := by
  cases x <;> simp [Except.mapError]

theorem map_eq_error_iff {ε α β : Type} {x : Except ε α} {f : α → β} {e : ε} : x.map f = .error e ↔ x = .error e := by
  cases x <;> simp [Except.map]

/-- A fold fails at the first step that does. -/
theorem foldlM_eq_error {ε α β : Type} {f : β → α → Except ε β} {xs : List α} {b : β} {e : ε}
    (h : xs.foldlM f b = .error e) :
    ∃ (before : List α) (x : α) (after : List α) (b' : β),
      xs = before ++ x :: after ∧ before.foldlM f b = .ok b' ∧ f b' x = .error e := by
  induction xs generalizing b with
  | nil => cases h
  | cons x rest ih =>
    rw [List.foldlM_cons] at h
    rcases bind_eq_error_iff.1 h with hx | ⟨b', hx, hrest⟩
    · exact ⟨[], x, rest, b, rfl, rfl, hx⟩
    · obtain ⟨before, y, after, b'', rfl, hbefore, hy⟩ := ih hrest
      refine ⟨x :: before, y, after, b'', rfl, ?_, hy⟩
      rw [List.foldlM_cons, bind_eq_ok_iff]
      exact ⟨b', hx, hbefore⟩

/-- A step of whose result something is known has ended well. -/
theorem map_toOption_eq_some_iff {ε α β : Type} {x : Except ε α} {f : α → β} {b : β} :
    x.toOption.map f = some b ↔ ∃ a, x = .ok a ∧ f a = b := by
  cases x <;> simp [Except.toOption]

/-! ### Texts in the code -/

/-- What holds for some characters holds for the text that they make up. The kernel is slow at taking a long literal
apart, so a text that is written as one is replaced by its characters before anything is computed of it. -/
theorem of_literal {P : List Char → Prop} {cs : List Char} (h : P cs) : P (String.ofList cs).toList := by
  rwa [String.toList_ofList]

/-- What a step makes of a text, where something is known of the result. -/
theorem exists_of_literal {ε α β : Type} {g : List Char → Except ε α} {f : α → β} {b : β} {cs : List Char}
    (h : (g cs).toOption.map f = some b) : ∃ a, g (String.ofList cs).toList = .ok a ∧ f a = b :=
  of_literal (P := fun text => ∃ a, g text = .ok a ∧ f a = b) (map_toOption_eq_some_iff.1 h)

/-! ### Generating code -/

/-- With the pool `p`, the step `x` produces `a` and leaves the pool `q`. -/
def Gen.Emits {α : Type} (x : Gen α) (p : Pool) (a : α) (q : Pool) : Prop := x.run p = .ok (a, q)

namespace Gen

variable {α β : Type} {p q : Pool}

private theorem ok_pair_iff {a b : α} : (Except.ok (a, p) : Except Fault (α × Pool)) = .ok (b, q) ↔ b = a ∧ q = p := by
  rw [Except.ok.injEq, Prod.mk.injEq]
  exact and_congr eq_comm eq_comm

theorem Emits.unique {x : Gen α} {a b : α} {r : Pool} (h : Emits x p a q) (h' : Emits x p b r) : a = b ∧ q = r :=
  ok_pair_iff.1 (h'.symm.trans h)

@[simp] theorem emits_pure {a b : α} : Emits (pure a) p b q ↔ b = a ∧ q = p := ok_pair_iff

@[simp] theorem emits_bind {x : Gen α} {f : α → Gen β} {b : β} :
    Emits (x >>= f) p b q ↔ ∃ a r, Emits x p a r ∧ Emits (f a) r b q := by
  simp only [Emits, StateT.run_bind, bind_eq_ok_iff, Prod.exists]

@[simp] theorem emits_lift {x : Except Fault α} {a : α} : Emits (liftM x) p a q ↔ x = .ok a ∧ q = p := by
  cases x with
  | error e =>
    constructor
    · intro h
      cases h
    · intro h
      cases h.1
  | ok b => exact ok_pair_iff.trans (by rw [Except.ok.injEq, eq_comm (a := a)])

@[simp] theorem not_emits_throw {e : Fault} {a : α} : ¬ Emits (throw e : Gen α) p a q := fun h => by cases h

@[simp] theorem emits_fresh {category : String} {l : Label} :
    Emits (fresh category) p l q ↔ l = (p.fresh category).1 ∧ q = (p.fresh category).2 := by
  simp only [Emits, fresh, StateT.run_modifyGet]
  exact ok_pair_iff

@[simp] theorem emits_intern {category payload : String} {l : Label} :
    Emits (intern category payload) p l q ↔ l = (p.intern category payload).1 ∧ q = (p.intern category payload).2 := by
  simp only [Emits, intern, StateT.run_modifyGet]
  exact ok_pair_iff

end Gen

/-! ### Passes without faults -/

/-- A step that ends well or with a diagnostic, never with a fault. -/
def Faultless {α : Type} (x : Except Failure α) : Prop := ∀ fault, x ≠ .error (.fault fault)

namespace Faultless

variable {α β : Type}

theorem ok (a : α) : Faultless (.ok a) := fun _ h => by cases h

theorem reject (line : Int) (cause : Diagnostic.Cause) : Faultless (reject line cause : Except Failure α) :=
  fun _ h => by cases h

/-- A sequence is without faults if its first part is, and its second part is for what the first produces. -/
theorem bind {x : Except Failure α} {f : α → Except Failure β} (hx : Faultless x)
    (hf : ∀ a, x = .ok a → Faultless (f a)) : Faultless (x >>= f) := by
  cases x with
  | error e =>
    intro fault h
    exact hx fault (by cases h; rfl)
  | ok a => exact hf a rfl

/-- A step that can only fail with a diagnostic. -/
theorem mapError {x : Except Diagnostic α} {f : Diagnostic → Failure} (hf : ∀ d, ∃ d', f d = .diagnostic d') :
    Faultless (x.mapError f) := by
  intro fault h
  cases x with
  | error d =>
    obtain ⟨d', hd⟩ := hf d
    simp [Except.mapError, hd] at h
  | ok a => cases h

/-- The failure of a step without faults is none in any other step. -/
theorem error {x : Except Failure α} (hx : Faultless x) {failure : Failure} (h : x = .error failure) :
    Faultless (.error failure : Except Failure β) := by
  intro fault he
  cases he
  exact hx fault h

theorem map {x : Except Failure α} (hx : Faultless x) (f : α → β) : Faultless (x.map f) := by
  cases x with
  | error failure => exact error hx rfl
  | ok a => exact ok (f a)

/-- What a step without faults can come to. -/
theorem cases {x : Except Failure α} (h : Faultless x) : (∃ a, x = .ok a) ∨ ∃ d, x = .error (.diagnostic d) := by
  rcases x with (d | fault) | a
  · exact .inr ⟨d, rfl⟩
  · exact absurd rfl (h fault)
  · exact .inl ⟨a, rfl⟩

end Faultless

end Arvore
