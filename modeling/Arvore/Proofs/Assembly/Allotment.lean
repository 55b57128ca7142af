import Mathlib
import Arvore.Proofs.Assembly.Requests

/-!
# Labels given out one after the other

A pool answers any requests, in any order and for any categories. The name of a label tells its category and its number
apart at the last underscore, so labels are the same exactly if their names are. Two answers of one pool are the same
only if both requests ask for one literal. In each category the labels that are given out are numbered from one, without
gaps, no matter which of them are shared (`Pool.requests_allotted`).
-/

namespace Arvore.Assembly

namespace Request

/-- The category that a label is asked of. -/
def category : Request → String
  | fresh category => category
  | intern category _ => category

/-- What the literal of a request is pooled by. -/
def key? : Request → Option (String × String)
  | fresh _ => none
  | intern category payload => some (category, payload)

theorem key?_eq_some_iff {r : Request} {k : String × String} : r.key? = some k ↔ r = .intern k.1 k.2 := by
  cases r <;> simp [key?, Prod.ext_iff]

theorem category_of_key? {r : Request} {k : String × String} (h : r.key? = some k) : r.category = k.1 := by
  rw [key?_eq_some_iff.1 h, category]

end Request

namespace Pool

/-- Requests with the labels that answer them. -/
def served (p : Pool) : List Request → List (Request × Label)
  | [] => []
  | r :: rest => (r, (p.serve r).1) :: (p.serve r).2.served rest

theorem after_snoc (p : Pool) (requests : List Request) (r : Request) :
    p.after (requests ++ [r]) = ((p.after requests).serve r).2 := by
  simp [after]

theorem served_snoc (p : Pool) (requests : List Request) (r : Request) :
    p.served (requests ++ [r]) = p.served requests ++ [(r, ((p.after requests).serve r).1)] := by
  induction requests generalizing p with
  | nil => rfl
  | cons r' rest ih => exact congrArg _ (ih _)

theorem map_fst_served (p : Pool) (requests : List Request) : (p.served requests).map Prod.fst = requests := by
  induction requests generalizing p with
  | nil => rfl
  | cons r rest ih => exact congrArg _ (ih _)

/-- A request is answered with the label of a literal that is there, or with the next label of its category. -/
theorem serve_cases (p : Pool) (r : Request) :
    (∃ l ∈ p.literals, r.key? = some l.key ∧ p.serve r = (l.label, p)) ∨
      ((∀ k, r.key? = some k → k ∉ p.keys) ∧ ∃ q : Pool, p.serve r = (⟨r.category, p.count r.category + 1⟩, q) ∧
        q.literals = p.literals ++ (r.key?.map fun k => ⟨k.2, ⟨r.category, p.count r.category + 1⟩⟩).toList ∧
        ∀ c, q.count c = if c = r.category then p.count c + 1 else p.count c) := by
  cases r with
  | fresh category =>
    refine .inr ⟨fun k hk => ?_, _, rfl, ?_, p.count_fresh category⟩
    · cases hk
    · exact (List.append_nil _).symm
  | intern category payload =>
    rcases p.intern_cases category payload with ⟨l, hl, hkey, heq⟩ | ⟨hnew, q, heq, hq, hcount⟩
    · exact .inl ⟨l, hl, congrArg some hkey.symm, heq⟩
    · refine .inr ⟨fun k hk => ?_, q, heq, hq, hcount⟩
      cases hk
      exact hnew

/-- What a pool knows about the labels that it has given out. -/
structure Accounts (given : List (Request × Label)) (p : Pool) : Prop where
  tidy : p.Tidy
  category : ∀ a ∈ given, a.2.category = a.1.category
  counted : ∀ a ∈ given, a.2.number ≤ p.count a.2.category
  unshared : ∀ a ∈ given, a.1.key? = none → a.2 ∉ p.labels
  shared : ∀ a ∈ given, ∀ k, a.1.key? = some k → ⟨k.2, a.2⟩ ∈ p.literals
  drawn : ∀ l ∈ p.labels, ∃ a ∈ given, a.2 = l

namespace Accounts

variable {given : List (Request × Label)} {p : Pool}

theorem nil : Accounts [] {} := ⟨.empty, by simp, by simp, by simp, by simp, by simp [labels]⟩

/-- An answer is the label of a literal exactly if that literal was asked for. -/
theorem label_eq_iff (h : Accounts given p) {a : Request × Label} (ha : a ∈ given) {l : Literal}
    (hl : l ∈ p.literals) : a.2 = l.label ↔ a.1.key? = some l.key := by
  cases hk : a.1.key? with
  | none =>
    have hne : a.2 ≠ l.label := fun heq => h.unshared a ha hk (heq ▸ List.mem_map_of_mem hl)
    simp [hne]
  | some k =>
    have hlit := h.shared a ha k hk
    have hkey : (⟨k.2, a.2⟩ : Literal).key = k := by
      rw [Literal.key, h.category a ha, Request.category_of_key? hk]
    rw [Option.some.injEq]
    constructor
    · intro heq
      rw [← hkey, List.inj_on_of_nodup_map h.tidy.labels hlit hl heq]
    · intro heq
      exact congrArg Literal.label (List.inj_on_of_nodup_map h.tidy.keys hlit hl (hkey.trans heq))

/-- The next label of a category was not given out before. -/
theorem ne_next (h : Accounts given p) {a : Request × Label} (ha : a ∈ given) (c : String) :
    a.2 ≠ ⟨c, p.count c + 1⟩ := by
  intro heq
  have hle := h.counted a ha
  rw [heq] at hle
  dsimp only at hle
  omega

/-- The label of a literal is given out again. -/
theorem again (h : Accounts given p) {r : Request} {l : Literal} (hl : l ∈ p.literals) (hr : r.key? = some l.key) :
    Accounts (given ++ [(r, l.label)]) p := by
  have hcategory : l.label.category = r.category := (Request.category_of_key? hr).symm
  have hlabel : l.label ∈ p.labels := List.mem_map_of_mem hl
  refine ⟨h.tidy, ?_, ?_, ?_, ?_, fun l' hl' => ?_⟩
  · simpa [or_imp, forall_and, hcategory] using h.category
  · simpa [or_imp, forall_and, h.tidy.counted _ hlabel] using h.counted
  · simpa [or_imp, forall_and, hr] using h.unshared
  · simpa [or_imp, forall_and, hr, Literal.key, hl] using h.shared
  · obtain ⟨a, ha, hal⟩ := h.drawn l' hl'
    exact ⟨a, List.mem_append_left _ ha, hal⟩

/-- The next label of a category is given out. -/
theorem grant (h : Accounts given p) {r : Request} {q : Pool} (hq : q.Tidy)
    (hliterals : q.literals = p.literals ++ (r.key?.map fun k => ⟨k.2, ⟨r.category, p.count r.category + 1⟩⟩).toList)
    (hcount : ∀ c, q.count c = if c = r.category then p.count c + 1 else p.count c) :
    Accounts (given ++ [(r, ⟨r.category, p.count r.category + 1⟩)]) q := by
  have hlabels : q.labels = p.labels ++ (r.key?.map fun _ => ⟨r.category, p.count r.category + 1⟩).toList := by
    rw [labels, hliterals, List.map_append]
    cases r.key? <;> rfl
  have hnext : ⟨r.category, p.count r.category + 1⟩ ∉ p.labels := by
    intro hl
    obtain ⟨a, ha, hal⟩ := h.drawn _ hl
    exact h.ne_next ha _ hal
  refine ⟨hq, ?_, ?_, ?_, ?_, ?_⟩
  · simpa [or_imp, forall_and] using h.category
  · simp only [List.mem_append, List.mem_singleton, hcount]
    rintro a (ha | rfl)
    · have hle := h.counted a ha
      split <;> omega
    · simp
  · simp only [List.mem_append, List.mem_singleton, hlabels, not_or]
    rintro a (ha | rfl) hk
    · refine ⟨h.unshared a ha hk, fun hl => ?_⟩
      cases hr : r.key? <;> simp [hr, h.ne_next ha] at hl
    · simpa [hk] using hnext
  · simp only [List.mem_append, List.mem_singleton, hliterals]
    rintro a (ha | rfl) k hk
    · exact .inl (h.shared a ha k hk)
    · simp [hk]
  · simp only [List.mem_append, List.mem_singleton, hlabels]
    rintro l (hl | hl)
    · obtain ⟨a, ha, hal⟩ := h.drawn l hl
      exact ⟨a, .inl ha, hal⟩
    · refine ⟨_, .inr rfl, ?_⟩
      cases hr : r.key? <;> simp_all

theorem serve (h : Accounts given p) (r : Request) : Accounts (given ++ [(r, (p.serve r).1)]) (p.serve r).2 := by
  have htidy := h.tidy.serve r
  rcases p.serve_cases r with ⟨l, hl, hr, heq⟩ | ⟨-, q, heq, hliterals, hcount⟩ <;> rw [heq] at htidy ⊢
  · exact h.again hl hr
  · exact h.grant htidy hliterals hcount

end Accounts

/-! ### All answers of a pool -/

theorem accounts_served (requests : List Request) : Accounts (served {} requests) (after {} requests) := by
  induction requests using List.reverseRecOn with
  | nil => exact .nil
  | append_singleton requests r ih =>
    rw [served_snoc, after_snoc]
    exact ih.serve r

/-- The literals are those that were asked for, each once and in the order of the first requests. -/
theorem keys_after (requests : List Request) :
    (after {} requests).keys = (requests.filterMap Request.key?).eraseDups := by
  induction requests using List.reverseRecOn with
  | nil => rfl
  | append_singleton requests r ih =>
    rw [after_snoc, List.filterMap_append]
    rcases (after {} requests).serve_cases r with ⟨l, hl, hr, heq⟩ | ⟨hnew, q, heq, hliterals, -⟩
    · have hmem : l.key ∈ requests.filterMap Request.key? := by
        rw [← List.mem_eraseDups, ← ih]
        exact List.mem_map_of_mem hl
      rw [heq, ih, List.filterMap_cons, hr]
      exact (eraseDups_snoc_of_mem hmem).symm
    · rw [heq, keys, hliterals, List.map_append, ← keys, ih, List.filterMap_cons]
      cases hr : r.key? with
      | none => simp
      | some k =>
        have hnot : k ∉ requests.filterMap Request.key? := by
          rw [← List.mem_eraseDups, ← ih]
          exact hnew k hr
        simp [eraseDups_snoc_of_not_mem hnot, Literal.key, Request.category_of_key? hr]

/-- A label is drawn for each request for a new one and for each literal. -/
theorem count_after (requests : List Request) (c : String) :
    (after {} requests).count c = requests.count (.fresh c) + ((after {} requests).keys.map Prod.fst).count c := by
  induction requests using List.reverseRecOn with
  | nil => rfl
  | append_singleton requests r ih =>
    rw [after_snoc, List.count_append, List.count_singleton]
    rcases (after {} requests).serve_cases r with ⟨l, -, hr, heq⟩ | ⟨-, q, heq, hliterals, hcount⟩
    · rw [heq, ih, Request.key?_eq_some_iff.1 hr]
      simp
    · rw [heq, hcount, ih, keys, keys, hliterals]
      by_cases hc : c = r.category
      · subst hc
        cases r <;> simp [Request.key?, Request.category, Literal.key] <;> omega
      · have hne := Ne.symm hc
        cases r <;> simp_all [Request.key?, Request.category, Literal.key]

/-- The labels of a category are given out in the order of their numbers, from one on. -/
theorem labels_served (requests : List Request) (c : String) :
    (((served {} requests).filter (·.1.category = c)).map Prod.snd).eraseDups =
      (List.range' 1 ((after {} requests).count c)).map (Label.mk c) := by
  induction requests using List.reverseRecOn with
  | nil => rfl
  | append_singleton requests r ih =>
    have h := accounts_served requests
    rw [served_snoc, after_snoc, List.filter_append, List.map_append]
    by_cases hc : r.category = c
    · subst hc
      rcases (after {} requests).serve_cases r with ⟨l, hl, hr, heq⟩ | ⟨-, q, heq, -, hcount⟩
      · -- the label was given out before, so it is among the labels already
        obtain ⟨a, ha, hal⟩ := h.drawn _ (List.mem_map_of_mem hl)
        have hcategory : a.1.category = r.category := by
          rw [← h.category a ha, hal, Request.category_of_key? hr]
          rfl
        have hmem : l.label ∈ ((served {} requests).filter (·.1.category = r.category)).map Prod.snd :=
          List.mem_map.2 ⟨a, List.mem_filter.2 ⟨ha, by simpa using hcategory⟩, hal⟩
        rw [heq, ← ih, ← eraseDups_snoc_of_mem hmem]
        simp
      · -- the label is new, and its number follows the last one
        have hnot : ⟨r.category, (after {} requests).count r.category + 1⟩ ∉
            ((served {} requests).filter (·.1.category = r.category)).map Prod.snd := by
          intro hmem
          obtain ⟨a, ha, hal⟩ := List.mem_map.1 hmem
          exact h.ne_next (List.mem_filter.1 ha).1 _ hal
        rw [heq, hcount, if_pos rfl, List.range'_1_concat, List.map_append, ← ih, Nat.add_comm 1]
        simp [eraseDups_snoc_of_not_mem hnot]
    · -- a request for another category changes nothing here
      have hcount : ((after {} requests).serve r).2.count c = (after {} requests).count c := by
        rcases (after {} requests).serve_cases r with ⟨l, -, -, heq⟩ | ⟨-, q, heq, -, hcount⟩ <;> rw [heq]
        rw [hcount, if_neg (Ne.symm hc)]
      rw [hcount, ← ih]
      simp [hc]

/-- Two answers are the same label only if both requests ask for one literal. -/
theorem pairwise_served (requests : List Request) :
    (served {} requests).Pairwise fun a b => a.2 = b.2 ↔ ∃ k, a.1.key? = some k ∧ b.1.key? = some k := by
  induction requests using List.reverseRecOn with
  | nil => exact .nil
  | append_singleton requests r ih =>
    have h := accounts_served requests
    rw [served_snoc]
    refine List.pairwise_append.2 ⟨ih, List.pairwise_singleton _ _, fun a ha b hb => ?_⟩
    rw [List.mem_singleton] at hb
    subst hb
    rcases (after {} requests).serve_cases r with ⟨l, hl, hr, heq⟩ | ⟨hnew, q, heq, -⟩
    · rw [heq, h.label_eq_iff ha hl]
      simp [hr]
    · -- neither the label nor the literal was met before
      rw [heq]
      refine iff_of_false (h.ne_next ha _) ?_
      rintro ⟨k, hk, hr⟩
      refine hnew k hr (List.mem_map.2 ⟨_, h.shared a ha k hk, ?_⟩)
      rw [Literal.key, h.category a ha, Request.category_of_key? hk]

/-- How the labels are shared out that a pool has given to requests. -/
structure Allotted (requests : List Request) (given : List (Request × Label)) (p : Pool) : Prop where
  answered : given.map Prod.fst = requests
  /-- two answers are the same name exactly if both requests ask for one literal -/
  same : given.Pairwise fun a b => a.2.name = b.2.name ↔
    ∃ category payload, a.1 = .intern category payload ∧ b.1 = .intern category payload
  keys : p.keys = (requests.filterMap Request.key?).eraseDups
  returned : ∀ l ∈ p.literals, ∀ a ∈ given, a.1 = .intern l.label.category l.payload → a.2 = l.label
  /-- a category has a label for each request for a new one and for each literal, and they are numbered from one -/
  numbers : ∀ c, ((given.filter (·.1.category = c)).map Prod.snd).eraseDups =
    (List.range' 1 (requests.count (.fresh c) + (p.keys.map Prod.fst).count c)).map (Label.mk c)

/-- Whatever is asked of a pool, labels are shared by the requests for one literal only, and numbered without gaps. -/
theorem requests_allotted (requests : List Request) :
    Allotted requests (served {} requests) (after {} requests) := by
  have h := accounts_served requests
  refine ⟨map_fst_served {} requests, ?_, keys_after requests, fun l hl a ha heq => ?_, fun c => ?_⟩
  · refine (pairwise_served requests).imp fun {a b} hab => ?_
    simpa [Label.name_injective.eq_iff, Request.key?_eq_some_iff] using hab
  · rw [h.label_eq_iff ha hl, heq]
    rfl
  · rw [← count_after]
    exact labels_served requests c

/-- The name `a_1_1` is that of a label of the category `a_1`, whatever is asked of the category `a`. -/
example : (served {} [.fresh "a", .intern "a_1" "x", .intern "a" "x", .intern "a_1" "x", .fresh "a"]).map (·.2.name) =
    ["a_1", "a_1_1", "a_2", "a_1_1", "a_3"] := by decide +kernel

end Pool

end Arvore.Assembly
