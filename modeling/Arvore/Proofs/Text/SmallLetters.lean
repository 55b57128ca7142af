import Mathlib
import Arvore.Text.NormalForm

/-!
# Words of small letters

The normal form makes many spellings equal, but a word of the letters from a to z has one spelling only: it is its own
normal form, and no other text has it (`nfc_eq_iff`). No decomposition consists of such letters alone, and no composite
is one of them, so a character that is not a small letter always leaves one behind that is none either.
-/

namespace Arvore.Text

/-- A text of small letters. -/
def Small (text : List Char) : Prop := ∀ c ∈ text, c.isLower = true

theorem small_cons {c : Char} {text : List Char} : Small (c :: text) ↔ c.isLower = true ∧ Small text :=
  List.forall_mem_cons

theorem small_reverse {text : List Char} : Small text.reverse ↔ Small text := by simp [Small]

theorem small_flatMap {α : Type} {f : α → List Char} {xs : List α} : Small (xs.flatMap f) ↔ ∀ x ∈ xs, Small (f x) := by
  simp only [Small, List.mem_flatMap, forall_exists_index, and_imp]
  exact ⟨fun h x hx c hc => h c x hx hc, fun h c x hx hc => h x hx c hc⟩

private theorem toNat_of_isLower {c : Char} (h : c.isLower = true) : 97 ≤ c.toNat ∧ c.toNat ≤ 122 := by
  rw [Char.isLower, Bool.and_eq_true, decide_eq_true_iff, decide_eq_true_iff] at h
  exact ⟨UInt32.le_iff_toNat_le.1 h.1, UInt32.le_iff_toNat_le.1 h.2⟩

/-! ### Small letters stay as they are -/

/-- What the tables say about the letters from a to z: nothing. -/
theorem tables_letter {c : Char} (h : c.isLower = true) :
    decompose c = [c] ∧ attachingEnds c = (0, 0) ∧ combiningClass c = 0 ∧ composesBackward c = false ∧
      Hangul.isLetter c.toNat = false := by
  have hall : ∀ i < 26, decompose (.ofNat (97 + i)) = [.ofNat (97 + i)] ∧ attachingEnds (.ofNat (97 + i)) = (0, 0) ∧
      combiningClass (.ofNat (97 + i)) = 0 ∧ composesBackward (.ofNat (97 + i)) = false ∧
      Hangul.isLetter (Char.ofNat (97 + i)).toNat = false := by decide +kernel
  have hbounds := toNat_of_isLower h
  have hc : c = .ofNat (97 + (c.toNat - 97)) := by
    rw [Nat.add_sub_cancel' hbounds.1, Char.ofNat_toNat]
  rw [hc]
  exact hall _ (by omega)

theorem map_char_cut {text : List Char} (h : Small text) (count : Nat) : (cut count text).map (·.char) = text := by
  induction text generalizing count with
  | nil => rfl
  | cons c rest ih =>
    rw [small_cons] at h
    obtain ⟨hdecompose, hends, -⟩ := tables_letter h.1
    simp [cut, hends, pieces, hdecompose, ih h.2]

theorem orderMarks_eq_self {run : List Char} (h : Small run) : orderMarks run = run := by
  induction run with
  | nil => rfl
  | cons c rest ih =>
    rw [small_cons] at h
    have hclass := (tables_letter h.1).2.2.1
    rw [orderMarks, List.foldr_cons, ← orderMarks, ih h.2]
    cases rest with
    | nil => rfl
    | cons d rest => rw [insertMark, hclass]; simp

theorem composeAfter_eq_self {done kept rest : List Char} {base : Char} (h : Small rest) :
    composeAfter done base kept rest = (kept ++ base :: done).reverse ++ rest := by
  induction rest generalizing kept with
  | nil => simp [composeAfter]
  | cons c rest ih =>
    rw [small_cons] at h
    obtain ⟨-, -, -, hbackward, hletter⟩ := tables_letter h.1
    simp [composeAfter, hletter, hbackward, ih h.2]

theorem composeRun_eq_self {run : List Char} (h : Small run) : composeRun run = run := by
  cases run with
  | nil => rfl
  | cons c rest => simp [composeRun, composeAfter_eq_self (small_cons.1 h).2]

theorem flatten_runs (text : List Char) : (runs text).flatten = (cut 0 text).map (·.char) := by
  rw [runs, ← List.map_flatten, List.flatten_splitBy]

theorem nfc_eq_self {text : String} (h : Small text.toList) : nfc text = text := by
  have hflatten : (runs text.toList).flatten = text.toList := by rw [flatten_runs, map_char_cut h]
  have hruns : ∀ run ∈ runs text.toList, composeRun (orderMarks run) = run := by
    intro run hrun
    have hsmall : Small run := fun c hc => h c (hflatten ▸ List.mem_flatten.2 ⟨run, hrun, hc⟩)
    rw [orderMarks_eq_self hsmall, composeRun_eq_self hsmall]
  rw [nfc, List.flatMap_congr hruns, List.flatMap_id', hflatten, String.ofList_toList]

/-! ### Other characters leave a trace -/

/-- No decomposition is all small letters, and no composite is a small letter. -/
theorem tables_trace :
    (∀ entry ∈ decompositions, ∃ n ∈ entry.2, (Char.ofNat n).isLower = false) ∧
    (∀ entry ∈ ideographs, (Char.ofNat entry.2).isLower = false) ∧
    ∀ entry ∈ compositions, (Char.ofNat entry.2.2).isLower = false := by decide +kernel

private theorem isLower_ofNat {n : Nat} (h : 123 ≤ n) : (Char.ofNat n).isLower = false := by
  by_contra hlower
  have hbounds := toNat_of_isLower (Bool.eq_true_of_not_eq_false hlower)
  rw [Char.toNat_ofNat] at hbounds
  split at hbounds <;> omega

theorem mem_of_lookupAscending {α : Type} {n : Nat} {table : List (Nat × α)} {value : α}
    (h : lookupAscending n table = some value) : (n, value) ∈ table := by
  induction table with
  | nil => cases h
  | cons entry rest ih =>
    obtain ⟨key, v⟩ := entry
    rw [lookupAscending] at h
    split at h
    · cases h
    split at h
    · rename_i hkey
      cases h
      exact hkey ▸ List.mem_cons_self
    · exact List.mem_cons_of_mem _ (ih h)

theorem exists_mem_decompose {c : Char} (h : c.isLower = false) : ∃ x ∈ decompose c, x.isLower = false := by
  unfold decompose
  dsimp only
  split
  · -- the first letter of a syllable
    refine ⟨Char.ofNat (0x1100 + (c.toNat - 0xAC00) / 588), ?_, isLower_ofNat (by omega)⟩
    unfold Hangul.decompose
    dsimp only
    split <;> simp
  · split
    · rename_i sequence _ hsequence
      obtain ⟨n, hn, hlower⟩ := tables_trace.1 _ (mem_of_lookupAscending hsequence)
      exact ⟨_, List.mem_map_of_mem hn, hlower⟩
    · rename_i form _ hform
      exact ⟨_, List.mem_singleton_self _, tables_trace.2.1 _ (mem_of_lookupAscending hform)⟩
    · exact ⟨c, List.mem_singleton_self c, h⟩

theorem map_char_pieces (opens : Bool) (c : Char) : (pieces opens c).map (·.char) = decompose c := by
  unfold pieces
  cases decompose c with
  | nil => rfl
  | cons x rest => simp [Function.comp_def]

theorem decompose_subset_cut {text : List Char} {c : Char} (hc : c ∈ text) (count : Nat) :
    decompose c ⊆ (cut count text).map (·.char) := by
  induction text generalizing count with
  | nil => cases hc
  | cons d rest ih =>
    rw [cut]
    dsimp only
    rcases List.mem_cons.1 hc with rfl | hc
    · split
      · simp [map_char_pieces]
      split
      · simp [map_char_pieces]
      · simp [map_char_pieces]
    · split
      · rw [List.map_append]
        exact List.subset_append_of_subset_right _ (ih hc _)
      split
      · rw [List.map_append]
        exact List.subset_append_of_subset_right _ (ih hc _)
      · rw [List.map_append]
        exact List.subset_append_of_subset_right _ (ih hc _)

theorem perm_insertMark (c : Char) (text : List Char) : (insertMark c text).Perm (c :: text) := by
  induction text with
  | nil => exact .refl _
  | cons d rest ih =>
    rw [insertMark]
    split
    · exact (ih.cons d).trans (.swap c d rest)
    · exact .refl _

theorem perm_orderMarks (run : List Char) : (orderMarks run).Perm run := by
  induction run with
  | nil => exact .refl _
  | cons c rest ih =>
    rw [orderMarks, List.foldr_cons, ← orderMarks]
    exact (perm_insertMark c _).trans (ih.cons c)

theorem isLower_of_composePair {a b x : Char} (h : composePair a b = some x) : x.isLower = false := by
  unfold composePair at h
  obtain ⟨entry, hentry, rfl⟩ := Option.map_eq_some_iff.1 h
  exact tables_trace.2.2 _ (List.mem_of_find?_eq_some hentry)

theorem isLower_of_compose {a b n : Nat} (h : Hangul.compose a b = some n) : (Char.ofNat n).isLower = false := by
  refine isLower_ofNat ?_
  unfold Hangul.compose Hangul.isSyllable at h
  split at h
  · rw [Option.some.injEq] at h
    omega
  split at h
  · rename_i hopen
    simp only [Bool.and_eq_true, decide_eq_true_eq] at hopen
    rw [Option.some.injEq] at h
    omega
  · cases h

theorem small_of_composeSyllables {done rest : List Char} (h : Small (composeSyllables done rest)) :
    Small done ∧ Small rest := by
  induction rest generalizing done with
  | nil => exact ⟨small_reverse.1 h, by simp [Small]⟩
  | cons c rest ih =>
    rw [composeSyllables.eq_def] at h
    dsimp only at h
    split at h
    · obtain ⟨hdone, hrest⟩ := ih h
      exact ⟨by simp [Small], small_cons.2 ⟨hdone c (by simp), hrest⟩⟩
    · split at h
      · rename_i n hn
        have hlower := (ih h).1 _ List.mem_cons_self
        rw [isLower_of_compose hn] at hlower
        cases hlower
      · obtain ⟨hdone, hrest⟩ := ih h
        rw [small_cons] at hdone
        exact ⟨hdone.2, small_cons.2 ⟨hdone.1, hrest⟩⟩

/-- If the composed text is all small letters, so was the text before it, since nothing was composed. -/
theorem small_of_composeAfter {done kept rest : List Char} {base : Char}
    (h : Small (composeAfter done base kept rest)) : Small (kept ++ base :: done) ∧ Small rest := by
  induction rest generalizing done base kept with
  | nil =>
    rw [composeAfter] at h
    exact ⟨small_reverse.1 h, by simp [Small]⟩
  | cons c rest ih =>
    -- a step either takes the next character over, or leaves a composite as the base
    have hkept : ∀ {done' base' kept'}, kept' ++ base' :: done' = c :: (kept ++ base :: done) →
        Small (composeAfter done' base' kept' rest) → Small (kept ++ base :: done) ∧ Small (c :: rest) := by
      intro done' base' kept' heq hsmall
      obtain ⟨hdone, hrest⟩ := ih hsmall
      rw [heq, small_cons] at hdone
      exact ⟨hdone.2, small_cons.2 ⟨hdone.1, hrest⟩⟩
    have hcomposed : ∀ {a b base' done' kept'}, composePair a b = some base' →
        ¬Small (composeAfter done' base' kept' rest) := by
      intro a b base' done' kept' hpair hsmall
      have hlower := (ih hsmall).1 base' (by simp)
      rw [isLower_of_composePair hpair] at hlower
      cases hlower
    rw [composeAfter.eq_def] at h
    dsimp only at h
    split at h
    · exact small_of_composeSyllables h
    split at h
    · exact hkept rfl h
    split at h
    · split at h
      · exact absurd h (hcomposed (by assumption))
      · exact hkept rfl h
    · split at h
      · split at h
        · exact absurd h (hcomposed (by assumption))
        · exact hkept (by simp) h
      · split at h
        · rename_i hpair
          split at hpair
          · exact absurd h (hcomposed hpair)
          · cases hpair
        · exact hkept rfl h

theorem small_of_composeRun {run : List Char} (h : Small (composeRun run)) : Small run := by
  cases run with
  | nil => exact h
  | cons c rest =>
    obtain ⟨hbase, hrest⟩ := small_of_composeAfter h
    exact small_cons.2 ⟨hbase c (by simp), hrest⟩

theorem small_of_nfc {text : String} (h : Small (nfc text).toList) : Small text.toList := by
  rw [nfc, String.toList_ofList, small_flatMap] at h
  have hruns : Small (runs text.toList).flatten := by
    rw [← List.flatMap_id', small_flatMap]
    intro run hrun c hc
    exact small_of_composeRun (h run hrun) c ((perm_orderMarks run).mem_iff.2 hc)
  rw [flatten_runs] at hruns
  intro c hc
  by_contra hlower
  obtain ⟨x, hx, hxlower⟩ := exists_mem_decompose (Bool.eq_false_of_not_eq_true hlower)
  have hsmall := hruns x (decompose_subset_cut hc 0 hx)
  rw [hxlower] at hsmall
  cases hsmall

/-- A word of small letters is the normal form of itself, and of no other text. -/
theorem nfc_eq_iff {text word : String} (h : Small word.toList) : nfc text = word ↔ text = word := by
  constructor
  · rintro rfl
    exact (nfc_eq_self (small_of_nfc h)).symm
  · rintro rfl
    exact nfc_eq_self h

end Arvore.Text
