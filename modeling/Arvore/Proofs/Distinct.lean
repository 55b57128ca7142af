import Mathlib

/-!
# Lists with every element once

`List.eraseDups` keeps the first of equal elements, in the order in which they come. An element behind a list is dropped
if it was there before and stays at the end if it was not. So it is what remains of a list whose elements are noted one
after the other (`foldl_note_nil`).
-/

namespace Arvore

variable {α : Type} [BEq α] [LawfulBEq α]

theorem eraseDups_snoc_of_mem {l : List α} {a : α} (h : a ∈ l) : (l ++ [a]).eraseDups = l.eraseDups := by
  simp [List.eraseDups_append, List.removeAll, h]

theorem eraseDups_snoc_of_not_mem {l : List α} {a : α} (h : a ∉ l) : (l ++ [a]).eraseDups = l.eraseDups ++ [a] := by
  simp [List.eraseDups_append, List.removeAll, h, List.eraseDups_cons]

theorem nodup_eraseDups (l : List α) : l.eraseDups.Nodup := by
  induction l using List.reverseRecOn with
  | nil => exact .nil
  | append_singleton l a ih =>
    by_cases h : a ∈ l
    · rw [eraseDups_snoc_of_mem h]
      exact ih
    · rw [eraseDups_snoc_of_not_mem h]
      exact ih.append (List.nodup_singleton a) (by simpa using h)

/-- Adds an element at the end, unless it was noted before. -/
def note (noted : List α) (a : α) : List α := if a ∈ noted then noted else noted ++ [a]

theorem note_of_mem {noted : List α} {a : α} (h : a ∈ noted) : note noted a = noted := if_pos h

theorem note_of_not_mem {noted : List α} {a : α} (h : a ∉ noted) : note noted a = noted ++ [a] := if_neg h

theorem foldl_note_nil (l : List α) : l.foldl note [] = l.eraseDups := by
  induction l using List.reverseRecOn with
  | nil => rfl
  | append_singleton l a ih =>
    rw [List.foldl_append, ih, List.foldl_cons, List.foldl_nil]
    by_cases h : a ∈ l
    · rw [eraseDups_snoc_of_mem h, note_of_mem (List.mem_eraseDups.2 h)]
    · rw [eraseDups_snoc_of_not_mem h, note_of_not_mem (by simpa using h)]

end Arvore
