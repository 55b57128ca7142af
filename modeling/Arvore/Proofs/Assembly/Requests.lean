import Mathlib
import Arvore.Proofs.Code.Pool

/-!
# Requests to a pool

Whatever is asked of a pool, and in whatever order, a literal has one label and a label has one literal
(`Pool.Tidy.after`). Literals are never given up again. So two requests for literals are answered with the same label
exactly if they ask for the same text in the same category (`Pool.Tidy.intern_eq_iff`), no matter what is asked for
between them.
-/

namespace Arvore.Assembly

/-- What a pool can be asked for: a new label, or the label of a literal. -/
inductive Request where
  | fresh (category : String)
  | intern (category payload : String)
  deriving DecidableEq, Repr

namespace Pool

/-- The answer to a request, and the pool afterwards. -/
def serve (p : Pool) : Request → Label × Pool
  | .fresh category => p.fresh category
  | .intern category payload => p.intern category payload

/-- The pool after requests one after the other. -/
def after (p : Pool) (requests : List Request) : Pool := requests.foldl (fun p r => (p.serve r).2) p

/-- A literal has one label and a label has one literal, and it is among the labels that were given out. -/
structure Tidy (p : Pool) : Prop where
  counted : ∀ l ∈ p.labels, l.number ≤ p.count l.category
  keys : p.keys.Nodup
  labels : p.labels.Nodup

theorem Tidy.empty : Tidy {} := ⟨by simp [Pool.labels], .nil, .nil⟩

theorem Tidy.fresh {p : Pool} (h : p.Tidy) (category : String) : (p.fresh category).2.Tidy := by
  refine ⟨fun l hl => ?_, h.keys, h.labels⟩
  have hcounted := h.counted l hl
  rw [count_fresh]
  split <;> omega

/-- A new literal has a new label. -/
theorem Tidy.intern {p : Pool} (h : p.Tidy) (category payload : String) : (p.intern category payload).2.Tidy := by
  rcases p.intern_cases category payload with ⟨l, -, -, heq⟩ | ⟨hnew, q, heq, hq, hcount⟩
  · rw [heq]
    exact h
  · rw [heq]
    have hkeys : q.keys = p.keys ++ [(category, payload)] := by simp [Pool.keys, hq, Literal.key]
    have hlabels : q.labels = p.labels ++ [⟨category, p.count category + 1⟩] := by simp [Pool.labels, hq]
    have hnew' : (⟨category, p.count category + 1⟩ : Label) ∉ p.labels := by
      intro hl
      have hcounted := h.counted _ hl
      dsimp only at hcounted
      omega
    refine ⟨fun l hl => ?_, ?_, ?_⟩
    · rw [hlabels, List.mem_append, List.mem_singleton] at hl
      rw [hcount]
      rcases hl with hl | rfl
      · have hcounted := h.counted l hl
        split <;> omega
      · rw [if_pos rfl]
    · rw [hkeys]
      exact h.keys.append (List.nodup_singleton _) (by simpa using hnew)
    · rw [hlabels]
      exact h.labels.append (List.nodup_singleton _) (by simpa using hnew')

theorem Tidy.serve {p : Pool} (h : p.Tidy) : ∀ r, (p.serve r).2.Tidy
  | .fresh category => h.fresh category
  | .intern category payload => h.intern category payload

/-- After any requests a literal has one label and a label has one literal. -/
theorem Tidy.after {p : Pool} (h : p.Tidy) (requests : List Request) : (p.after requests).Tidy := by
  induction requests generalizing p with
  | nil => exact h
  | cons r rest ih => exact ih (h.serve r)

theorem literals_subset_intern (p : Pool) (category payload : String) :
    p.literals ⊆ (p.intern category payload).2.literals := by
  rcases p.intern_cases category payload with ⟨l, -, -, heq⟩ | ⟨-, q, heq, hq, -⟩
  · rw [heq]
    exact List.Subset.refl _
  · rw [heq, hq]
    exact List.subset_append_left _ _

theorem literals_subset_serve (p : Pool) : ∀ r, p.literals ⊆ (p.serve r).2.literals
  | .fresh _ => List.Subset.refl _
  | .intern category payload => p.literals_subset_intern category payload

/-- Literals are never given up. -/
theorem literals_subset_after (p : Pool) (requests : List Request) : p.literals ⊆ (p.after requests).literals := by
  induction requests generalizing p with
  | nil => exact List.Subset.refl _
  | cons r rest ih => exact List.Subset.trans (p.literals_subset_serve r) (ih _)

/-- The label of a literal is of its category, and from then on the literal is in the pool. -/
theorem mem_literals_intern (p : Pool) (category payload : String) :
    (p.intern category payload).1.category = category ∧
      ⟨payload, (p.intern category payload).1⟩ ∈ (p.intern category payload).2.literals := by
  rcases p.intern_cases category payload with ⟨l, hl, hkey, heq⟩ | ⟨-, q, heq, hq, -⟩
  · obtain ⟨rfl, rfl⟩ := Prod.mk.inj hkey
    rw [heq]
    exact ⟨rfl, hl⟩
  · rw [heq, hq]
    exact ⟨rfl, List.mem_append_right _ (List.mem_singleton_self _)⟩

/-- Two requests for literals are answered with the same label exactly if they are the same. -/
theorem Tidy.intern_eq_iff {p : Pool} (h : p.Tidy) (category payload : String) (requests : List Request)
    (category' payload' : String) :
    (p.intern category payload).1 =
        (((p.intern category payload).2.after requests).intern category' payload').1 ↔
      category = category' ∧ payload = payload' := by
  set q := (p.intern category payload).2 with hq
  set r := q.after requests with hr
  obtain ⟨hcategory, hmem⟩ := p.mem_literals_intern category payload
  obtain ⟨hcategory', hmem'⟩ := r.mem_literals_intern category' payload'
  -- both literals are in the last pool
  have hlast := r.literals_subset_intern category' payload' (q.literals_subset_after requests hmem)
  have htidy : (r.intern category' payload').2.Tidy := ((h.intern category payload).after requests).intern _ _
  constructor
  · intro heq
    have hsame := List.inj_on_of_nodup_map htidy.labels hlast hmem' heq
    rw [Literal.mk.injEq] at hsame
    rw [← hcategory, ← hcategory', heq]
    exact ⟨rfl, hsame.1⟩
  · rintro ⟨rfl, rfl⟩
    have hkey : (⟨payload, (p.intern category payload).1⟩ : Literal).key =
        (⟨payload, (r.intern category payload).1⟩ : Literal).key := by
      rw [Literal.key, Literal.key, hcategory, hcategory']
    have hsame := List.inj_on_of_nodup_map htidy.keys hlast hmem' hkey
    rw [Literal.mk.injEq] at hsame
    exact hsame.2

end Pool

end Arvore.Assembly
