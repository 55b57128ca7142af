import Mathlib
import Arvore.Proofs.Distinct
import Arvore.Proofs.Sequence

/-!
# Pools of labels

A pool gives out two sorts of labels. Those that jumps go to are new each time: while the pool goes from `p` to
`q`, the labels drawn from it are exactly those with a number between the two counts of their category (`Draws`).
Those of literals are shared: a literal gets a new label when it is met first, and keeps it (`Interns`). The two
sorts are of different categories and never get into each other's way. What an empty pool gives out (`Supplies`)
are the labels of each category from one on, each once (`Supplies.mem_labels_iff`, `Supplies.nodup_labels`).
-/

namespace Arvore

open Assembly

namespace Assembly

/-! ### Categories -/

/-- The categories of labels that jumps go to. -/
def Category.control : List String :=
  [Category.otherwise, Category.endBranch, Category.whileLoop, Category.endWhile, Category.forLoop, Category.endFor]

/-- The categories that literals are pooled under. -/
def Category.literals : List String := [Category.string, Category.float, Category.int]

/-- The categories of all labels. -/
def Category.all : List String := control ++ literals

theorem Category.not_mem_literals {c : String} (h : c ∈ control) : c ∉ literals := by
  simp only [control, List.mem_cons, List.not_mem_nil, or_false] at h
  rcases h with rfl | rfl | rfl | rfl | rfl | rfl <;> decide +kernel

theorem Category.ne_of_mem {c d : String} (hc : c ∈ control) (hd : d ∈ literals) : c ≠ d := by
  rintro rfl
  exact not_mem_literals hc hd

/-! ### Names -/

private theorem append_cons_inj {α : Type} {a b c d : List α} {x : α} (hc : x ∉ c) (hd : x ∉ d)
    (h : a ++ x :: c = b ++ x :: d) : a = b ∧ c = d := by
  rcases List.append_eq_append_iff.1 h with ⟨as, rfl, hx⟩ | ⟨bs, rfl, hx⟩
  · cases as with
    | nil => simpa using hx
    | cons y as =>
      obtain ⟨rfl, rfl⟩ := List.cons.inj hx
      simp at hc
  · cases bs with
    | nil => simpa using hx.symm
    | cons y bs =>
      obtain ⟨rfl, rfl⟩ := List.cons.inj hx
      simp at hd

private theorem underscore_not_mem_repr (n : Nat) : '_' ∉ n.repr.toList := by
  rw [Nat.toList_repr]
  intro h
  have hdigit := Nat.isDigit_of_mem_toDigits (by decide) (by decide) h
  revert hdigit
  decide

/-- Labels have different names, since the last underscore of a name stands behind the category. -/
theorem Label.name_injective : Function.Injective Label.name := by
  rintro ⟨c, n⟩ ⟨c', n'⟩ hname
  have hlist : c.toList ++ '_' :: n.repr.toList = c'.toList ++ '_' :: n'.repr.toList := by
    simpa [name] using congrArg String.toList hname
  obtain ⟨hc, hn⟩ := append_cons_inj (underscore_not_mem_repr n) (underscore_not_mem_repr n') hlist
  rw [Label.mk.injEq]
  exact ⟨String.toList_inj.1 hc, Nat.repr_inj.1 (String.toList_inj.1 hn)⟩

namespace Pool

/-! ### Counts -/

theorem lookup_setCount (category : String) (n : Nat) (counts : List (String × Nat)) (c : String) :
    (setCount category n counts).lookup c = if c = category then some n else counts.lookup c := by
  induction counts with
  | nil =>
    rw [setCount, List.lookup_cons]
    by_cases h : c = category
    · simp [h]
    · simp [h, beq_false_of_ne h]
  | cons entry rest ih =>
    obtain ⟨name, k⟩ := entry
    rw [setCount]
    split
    · subst name
      by_cases h : c = category
      · simp [h]
      · simp [h, List.lookup_cons, beq_false_of_ne h]
    · rename_i hn
      by_cases h : c = name
      · simp [h, hn]
      · simp [List.lookup_cons, beq_false_of_ne h, ih]

@[simp] theorem count_fresh (p : Pool) (category c : String) :
    (p.fresh category).2.count c = if c = category then p.count c + 1 else p.count c := by
  simp only [fresh, count, lookup_setCount]
  split
  · subst c
    rfl
  · rfl

@[simp] theorem count_empty (c : String) : Pool.count {} c = 0 := rfl

theorem fresh_fst (p : Pool) (category : String) : (p.fresh category).1 = ⟨category, p.count category + 1⟩ := rfl

/-! ### Literals -/

end Pool

/-- What a literal is pooled by. -/
def Literal.key (l : Literal) : String × String := (l.label.category, l.payload)

namespace Pool

/-- What the literals of a pool are pooled by, in order. -/
def keys (p : Pool) : List (String × String) := p.literals.map Literal.key

/-- The labels of the literals of a pool, in order. -/
def labels (p : Pool) : List Label := p.literals.map Literal.label

/-- A literal is in the pool already, or it is added under a new label. -/
theorem intern_cases (p : Pool) (category payload : String) :
    (∃ l ∈ p.literals, l.key = (category, payload) ∧ p.intern category payload = (l.label, p)) ∨
      ((category, payload) ∉ p.keys ∧ ∃ q : Pool, p.intern category payload = (⟨category, p.count category + 1⟩, q) ∧
        q.literals = p.literals ++ [⟨payload, ⟨category, p.count category + 1⟩⟩] ∧
        ∀ c, q.count c = if c = category then p.count c + 1 else p.count c) := by
  unfold intern find?
  split
  · rename_i l hl
    have hkey := List.find?_some hl
    simp only [Bool.and_eq_true, decide_eq_true_eq] at hkey
    exact .inl ⟨l, List.mem_of_find?_eq_some hl, by rw [Literal.key, hkey.1, hkey.2], rfl⟩
  · rename_i hl
    refine .inr ⟨fun hm => ?_, _, rfl, rfl, p.count_fresh category⟩
    obtain ⟨l, hl', hkey⟩ := List.mem_map.1 hm
    have hnot := List.find?_eq_none.1 hl l hl'
    rw [Literal.key, Prod.mk.injEq] at hkey
    simp [hkey.1, hkey.2] at hnot

/-- The literals of a pool have all the labels of their categories that were given out, and no others. -/
structure Sound (p : Pool) : Prop where
  mem_iff : ∀ l, l ∈ p.labels ↔ l.category ∈ Category.literals ∧ 0 < l.number ∧ l.number ≤ p.count l.category
  count : ∀ c ∈ Category.literals, p.count c = (p.labels.map Label.category).count c

theorem Sound.empty : Sound {} := by
  refine ⟨fun l => ?_, fun c _ => rfl⟩
  simp only [labels, List.map_nil, List.not_mem_nil, false_iff, count_empty]
  omega

/-- Only the counts of literals matter. -/
theorem Sound.congr {p q : Pool} (h : p.Sound) (hl : q.literals = p.literals)
    (hc : ∀ c ∈ Category.literals, q.count c = p.count c) : q.Sound := by
  have hlabels : q.labels = p.labels := by rw [labels, labels, hl]
  refine ⟨fun l => ?_, fun c hm => by rw [hc c hm, hlabels, h.count c hm]⟩
  rw [hlabels, h.mem_iff]
  exact and_congr_right fun hm => by rw [hc _ hm]

/-- A new literal takes the next label of its category. -/
theorem Sound.snoc {p q : Pool} (h : p.Sound) {category payload : String} (hc : category ∈ Category.literals)
    (hl : q.literals = p.literals ++ [⟨payload, ⟨category, p.count category + 1⟩⟩])
    (hq : ∀ c, q.count c = if c = category then p.count c + 1 else p.count c) : q.Sound := by
  have hlabels : q.labels = p.labels ++ [⟨category, p.count category + 1⟩] := by simp [labels, hl]
  refine ⟨fun l => ?_, fun c hm => ?_⟩
  · obtain ⟨c, n⟩ := l
    rw [hlabels, List.mem_append, List.mem_singleton, h.mem_iff, hq, Label.mk.injEq]
    by_cases hcat : c = category
    · subst hcat
      simp only [hc, true_and, if_true]
      omega
    · simp [hcat]
  · rw [hlabels, hq, h.count c hm, List.map_append, List.count_append]
    by_cases hcat : c = category
    · simp [hcat]
    · simp [hcat, Ne.symm hcat]

end Pool

end Assembly

/-! ### Labels that are drawn -/

/-- While the pool goes from `p` to `q`, labels of the categories `cs` are drawn, and these are the labels `ls`. -/
structure Draws (p : Pool) (cs : List String) (ls : List Label) (q : Pool) : Prop where
  known : cs ⊆ Category.control
  mono : ∀ c, p.count c ≤ q.count c
  count : ∀ c ∈ Category.control, q.count c = p.count c + cs.count c
  mem_iff : ∀ l, l ∈ ls ↔
    l.category ∈ Category.control ∧ p.count l.category < l.number ∧ l.number ≤ q.count l.category
  nodup : ls.Nodup

namespace Draws

variable {p q r : Pool} {cs cs' : List String} {ls ls' : List Label}

theorem nil (p : Pool) : Draws p [] [] p := by
  refine ⟨by simp, fun _ => le_rfl, fun _ _ => by simp, fun l => ?_, .nil⟩
  simp only [List.not_mem_nil, false_iff]
  omega

theorem append (h : Draws p cs ls q) (h' : Draws q cs' ls' r) : Draws p (cs ++ cs') (ls ++ ls') r := by
  refine ⟨List.append_subset.2 ⟨h.known, h'.known⟩, fun c => (h.mono c).trans (h'.mono c), fun c hc => ?_, fun l => ?_,
    h.nodup.append h'.nodup ?_⟩
  · rw [h'.count c hc, h.count c hc, List.count_append]
    omega
  · have hp := h.mono l.category
    have hq := h'.mono l.category
    rw [List.mem_append, h.mem_iff, h'.mem_iff, ← and_or_left]
    exact and_congr_right fun _ => by omega
  · intro l hl hl'
    have high := ((h.mem_iff l).1 hl).2.2
    have low := ((h'.mem_iff l).1 hl').2.1
    omega

/-- The order of the labels need not be that of drawing. -/
theorem perm (h : Draws p cs ls q) (hp : ls.Perm ls') : Draws p cs ls' q :=
  ⟨h.known, h.mono, h.count, fun l => by rw [← h.mem_iff, hp.mem_iff], hp.nodup_iff.1 h.nodup⟩

theorem fresh {category : String} (hc : category ∈ Category.control) {l : Label}
    (h : (Gen.fresh category).Emits p l q) : Draws p [category] [l] q := by
  obtain ⟨rfl, rfl⟩ := Gen.emits_fresh.1 h
  refine ⟨by simpa using hc, fun c => ?_, fun c _ => ?_, fun l => ?_, List.nodup_singleton _⟩
  · rw [Pool.count_fresh]
    split <;> omega
  · rw [Pool.count_fresh]
    by_cases hcat : c = category
    · simp [hcat]
    · simp [hcat, Ne.symm hcat]
  · obtain ⟨c, n⟩ := l
    rw [Pool.count_fresh, Pool.fresh_fst, List.mem_singleton, Label.mk.injEq]
    by_cases hcat : c = category
    · subst hcat
      simp only [hc, true_and, if_true]
      omega
    · simp only [hcat, false_and, if_false, false_iff]
      omega

/-- Literals draw no labels that jumps could go to. -/
theorem intern {category payload : String} (hc : category ∈ Category.literals) {l : Label}
    (h : (Gen.intern category payload).Emits p l q) : Draws p [] [] q := by
  obtain ⟨rfl, rfl⟩ := Gen.emits_intern.1 h
  rcases p.intern_cases category payload with ⟨l, -, -, heq⟩ | ⟨-, q, heq, -, hq⟩
  · rw [heq]
    exact nil p
  · have hsame : ∀ c ∈ Category.control, q.count c = p.count c := fun c hm => by
      rw [hq, if_neg (Category.ne_of_mem hm hc)]
    rw [heq]
    refine ⟨by simp, fun c => ?_, fun c hm => by simp [hsame c hm], fun l => ?_, .nil⟩
    · simp only [hq]
      split <;> omega
    · simp only [List.not_mem_nil, false_iff, not_and]
      intro hm
      rw [hsame _ hm]
      omega

end Draws

/-! ### Literals that are pooled -/

/-- While the pool goes from `p` to `q`, literals are asked for by the keys `ks` and found under the labels `ls`.
Those that are new are added in the order in which they come. -/
structure Interns (p : Pool) (ks : List (String × String)) (ls : List Label) (q : Pool) : Prop where
  sound : q.Sound
  kept : p.literals ⊆ q.literals
  keys : q.keys = ks.foldl note p.keys
  labels : q.labels = ls.foldl note p.labels
  named : List.Forall₂ (fun l k => ∃ literal ∈ q.literals, literal.label = l ∧ literal.key = k) ls ks

namespace Interns

variable {p q r : Pool} {ks ks' : List (String × String)} {ls ls' : List Label}

theorem nil (h : p.Sound) : Interns p [] [] p := ⟨h, List.Subset.refl _, rfl, rfl, .nil⟩

theorem append (h : Interns p ks ls q) (h' : Interns q ks' ls' r) : Interns p (ks ++ ks') (ls ++ ls') r := by
  refine ⟨h'.sound, List.Subset.trans h.kept h'.kept, ?_, ?_, List.rel_append (h.named.imp ?_) h'.named⟩
  · rw [List.foldl_append, ← h.keys, h'.keys]
  · rw [List.foldl_append, ← h.labels, h'.labels]
  · rintro l k ⟨literal, hm, hl⟩
    exact ⟨literal, h'.kept hm, hl⟩

theorem fresh {category : String} (hc : category ∈ Category.control) {l : Label} (hp : p.Sound)
    (h : (Gen.fresh category).Emits p l q) : Interns p [] [] q := by
  obtain ⟨rfl, rfl⟩ := Gen.emits_fresh.1 h
  refine ⟨hp.congr rfl fun c hm => ?_, List.Subset.refl _, rfl, rfl, .nil⟩
  rw [Pool.count_fresh, if_neg (Ne.symm (Category.ne_of_mem hc hm))]

theorem intern {category payload : String} (hc : category ∈ Category.literals) {l : Label} (hp : p.Sound)
    (h : (Gen.intern category payload).Emits p l q) : Interns p [(category, payload)] [l] q := by
  obtain ⟨rfl, rfl⟩ := Gen.emits_intern.1 h
  rcases p.intern_cases category payload with ⟨l, hm, hkey, heq⟩ | ⟨hnew, q, heq, hl, hq⟩
  · -- the literal is there: nothing is added
    have hkeys : (category, payload) ∈ p.keys := hkey ▸ List.mem_map_of_mem hm
    have hlabels : l.label ∈ p.labels := List.mem_map_of_mem hm
    rw [heq]
    exact ⟨hp, List.Subset.refl _, (note_of_mem hkeys).symm, (note_of_mem hlabels).symm,
      .cons ⟨l, hm, rfl, hkey⟩ .nil⟩
  · -- its label is new, since its number is greater than the count
    have hlabel : (⟨category, p.count category + 1⟩ : Label) ∉ p.labels := fun hm => by
      have high := ((hp.mem_iff _).1 hm).2.2
      dsimp only at high
      omega
    rw [heq]
    have hm : (⟨payload, ⟨category, p.count category + 1⟩⟩ : Literal) ∈ q.literals := by simp [hl]
    refine ⟨hp.snoc hc hl hq, by simp [hl], ?_, ?_, .cons ⟨_, hm, rfl, rfl⟩ .nil⟩
    · rw [List.foldl_cons, List.foldl_nil, note_of_not_mem hnew]
      simp [Pool.keys, hl, Literal.key]
    · rw [List.foldl_cons, List.foldl_nil, note_of_not_mem hlabel]
      simp [Pool.labels, hl]

end Interns

/-! ### What a pool gives out -/

/-- While the pool goes from `p` to `q`, the labels `ls` of the categories `cs` are drawn, and the literals with
the keys `ks` are found under the labels `us`. -/
structure Supplies (p : Pool) (cs : List String) (ls : List Label) (ks : List (String × String)) (us : List Label)
    (q : Pool) : Prop where
  draws : Draws p cs ls q
  interns : p.Sound → Interns p ks us q

namespace Supplies

variable {p q r : Pool} {cs cs' : List String} {ls ls' us us' : List Label} {ks ks' : List (String × String)}

theorem nil (p : Pool) : Supplies p [] [] [] [] p := ⟨.nil p, .nil⟩

theorem append (h : Supplies p cs ls ks us q) (h' : Supplies q cs' ls' ks' us' r) :
    Supplies p (cs ++ cs') (ls ++ ls') (ks ++ ks') (us ++ us') r := by
  refine ⟨h.draws.append h'.draws, fun hp => ?_⟩
  have hq := h.interns hp
  exact hq.append (h'.interns hq.sound)

/-- The labels may be listed in another order than that of drawing. -/
theorem perm (h : Supplies p cs ls ks us q) (hl : ls.Perm ls') : Supplies p cs ls' ks us q :=
  ⟨h.draws.perm hl, h.interns⟩

theorem fresh {category : String} (hc : category ∈ Category.control) {l : Label}
    (h : (Gen.fresh category).Emits p l q) : Supplies p [category] [l] [] [] q :=
  ⟨.fresh hc h, fun hp => .fresh hc hp h⟩

theorem intern {category payload : String} (hc : category ∈ Category.literals) {l : Label}
    (h : (Gen.intern category payload).Emits p l q) : Supplies p [] [] [(category, payload)] [l] q :=
  ⟨.intern hc h, fun hp => .intern hc hp h⟩

section Empty

variable (h : Supplies {} cs ls ks us q)

include h

/-- The literals of the pool are those that were asked for, each once. -/
theorem keys_eq : q.keys = ks.eraseDups := (h.interns .empty).keys.trans (foldl_note_nil ks)

theorem labels_eq : q.labels = us.eraseDups := (h.interns .empty).labels.trans (foldl_note_nil us)

/-- There are as many labels of a category as it was drawn, or as there are literals of it. -/
theorem count_eq {category : String} (hc : category ∈ Category.all) :
    q.count category = cs.count category + (ks.eraseDups.map Prod.fst).count category := by
  have hsound := (h.interns .empty).sound
  have hkeys : ks.eraseDups.map Prod.fst = q.labels.map Label.category := by
    rw [← h.keys_eq, Pool.keys, Pool.labels, List.map_map, List.map_map]
    rfl
  rw [hkeys]
  rcases List.mem_append.1 hc with hc | hc
  · -- no literal is of a category that is drawn
    have hnone : category ∉ q.labels.map Label.category := by
      intro hm
      obtain ⟨l, hl, rfl⟩ := List.mem_map.1 hm
      exact Category.not_mem_literals hc ((hsound.mem_iff l).1 hl).1
    rw [h.draws.count category hc, List.count_eq_zero.2 hnone, Pool.count_empty, Nat.zero_add, Nat.add_zero]
  · have hnone : category ∉ cs := fun hm => Category.not_mem_literals (h.draws.known hm) hc
    rw [hsound.count category hc, List.count_eq_zero.2 hnone, Nat.zero_add]

/-- The labels of each category are numbered from one, without gaps. -/
theorem mem_labels_iff (l : Label) : l ∈ ls ++ q.labels ↔
    l.category ∈ Category.all ∧ 0 < l.number ∧ l.number ≤ q.count l.category := by
  have hsound := (h.interns .empty).sound
  rw [List.mem_append, h.draws.mem_iff, hsound.mem_iff, Pool.count_empty, ← or_and_right, ← List.mem_append]
  rfl

theorem nodup_labels : (ls ++ q.labels).Nodup := by
  have hsound := (h.interns .empty).sound
  refine h.draws.nodup.append ?_ fun l hl hl' => ?_
  · rw [h.labels_eq]
    exact nodup_eraseDups _
  · exact Category.not_mem_literals ((h.draws.mem_iff l).1 hl).1 ((hsound.mem_iff l).1 hl').1

end Empty

end Supplies

end Arvore
