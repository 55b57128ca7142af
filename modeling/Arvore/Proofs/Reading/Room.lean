import Mathlib
import Arvore.Proofs.Reading.Token
import Arvore.Text.Utf8

/-!
# Room for symbols

The symbols of a text are cut from its source: each has its own bytes there, and between two of them there is at least
one byte more (`Token.cut_of_scan`). Since there are few texts of only seven bytes, a source of less than `2 ^ 63` bytes
has less than `2 ^ 60` different symbols (`Token.Cut.length_lt`).
-/

namespace Arvore

/-! ### Parts of a source -/

namespace Text.Utf8

theorem first_length_le (a : UInt8) (rest : List UInt8) : (first a rest).2 ≤ rest.length := by
  grind [first.eq_def]

/-- What follows the bytes of a character does not matter. -/
theorem first_append {a : UInt8} {x y : List UInt8} (h : (first a (x ++ y)).2 ≤ x.length) :
    first a x = first a (x ++ y) := by
  rcases x with _ | ⟨b, _ | ⟨c, _ | ⟨d, x⟩⟩⟩
  all_goals grind [first.eq_def]

/-- The parts of a text are the texts of parts of its source. -/
theorem exists_append_of_decode {bytes : List UInt8} {front behind : List Char}
    (h : decode bytes = front ++ behind) : ∃ x y, bytes = x ++ y ∧ decode x = front ∧ decode y = behind := by
  induction front generalizing bytes with
  | nil => exact ⟨[], bytes, rfl, by rw [decode], h⟩
  | cons c front ih =>
    cases bytes with
    | nil => simp [decode] at h
    | cons a rest =>
      rw [decode, List.cons_append, List.cons.injEq] at h
      obtain ⟨hc, h⟩ := h
      obtain ⟨x, y, hrest, hx, hy⟩ := ih h
      set n := (first a rest).2 with hn
      have htake : (rest.take n).length = n := List.length_take_of_le (first_length_le a rest)
      have hsplit : rest.take n ++ x ++ y = rest := by rw [List.append_assoc, ← hrest, List.take_append_drop]
      have hfirst : first a (rest.take n ++ x) = first a rest := by
        have hbytes : (first a (rest.take n ++ x ++ y)).2 ≤ (rest.take n ++ x).length := by
          rw [hsplit, List.length_append, htake]
          exact Nat.le_add_right n x.length
        rw [first_append hbytes, hsplit]
      refine ⟨a :: (rest.take n ++ x), y, by rw [List.cons_append, hsplit], ?_, hy⟩
      rw [decode, hfirst, hc, ← hn, List.drop_left' htake, hx]

/-- What follows the first character of a text, or more of it, has a source with fewer bytes. -/
theorem exists_shorter_of_decode {bytes : List UInt8} {c : Char} {rest behind : List Char}
    (h : decode bytes = c :: rest) (hs : behind <:+ rest) : ∃ y, decode y = behind ∧ y.length < bytes.length := by
  obtain ⟨front, rfl⟩ := hs
  rw [← List.cons_append] at h
  obtain ⟨x, y, rfl, hx, hy⟩ := exists_append_of_decode h
  refine ⟨y, hy, ?_⟩
  have hne : x ≠ [] := by
    rintro rfl
    simp [decode] at hx
  have := List.length_pos_iff.2 hne
  rw [List.length_append]
  omega

end Text.Utf8

/-! ### What follows a token -/

namespace Token

theorem stringBody_suffix {text value rest : List Char} {ends : Nat} (h : stringBody text = .closed value ends rest) :
    rest <:+ text := by
  fun_induction stringBody text generalizing value ends rest with
  | case1 | case3 | case4 | case6 => cases h
  | case2 =>
    cases h
    exact List.suffix_cons _ _
  | case5 e text _ _ _ _ ih =>
    cases hb : stringBody text with
    | failed => rw [hb] at h; cases h
    | closed =>
      rw [hb] at h
      cases h
      exact (ih hb).trans ((List.suffix_cons _ _).trans (List.suffix_cons _ _))
  | case7 c text _ _ _ ih =>
    cases hb : stringBody text with
    | failed => rw [hb] at h; cases h
    | closed =>
      rw [hb] at h
      cases h
      exact (ih hb).trans (List.suffix_cons _ _)

theorem fraction_suffix (text : List Char) : (fraction text).2 <:+ text := by
  unfold fraction
  split
  · split
    · exact (List.dropWhile_suffix _).trans ((List.suffix_cons _ _).trans (List.suffix_cons _ _))
    · exact List.suffix_refl _
  · exact List.suffix_refl _

theorem sign_suffix (text : List Char) : (sign text).2 <:+ text := by
  unfold sign
  split
  · split
    · exact List.suffix_cons _ _
    · exact List.suffix_refl _
  · exact List.suffix_refl _

theorem exponent_suffix (text : List Char) : (exponent text).2 <:+ text := by
  unfold exponent
  split
  · split
    · exact (List.dropWhile_suffix _).trans ((sign_suffix _).trans (List.suffix_cons _ _))
    · exact List.suffix_refl _
  · exact List.suffix_refl _

/-- What follows a token is what is left of the text. -/
theorem next_suffix {c : Char} {text rest : List Char} {t : Token} {ends : Nat}
    (h : next c text = .token t ends rest) : rest <:+ text := by
  unfold next at h
  split at h
  · cases h
    exact List.suffix_refl _
  · split at h
    · split at h
      · rename_i hb
        cases h
        exact stringBody_suffix hb
      · cases h
    · split at h
      · cases h
        exact (exponent_suffix _).trans ((fraction_suffix _).trans (List.dropWhile_suffix _))
      · split at h
        · cases h
          exact List.dropWhile_suffix _
        · cases h

/-! ### The bytes of symbols -/

/-- Symbols that are cut from so many bytes, where each leaves at least one byte to the next. -/
def Cut (symbols : List String) (room : Nat) : Prop :=
  ∃ pieces : List (List UInt8), symbols = pieces.map (fun x => String.ofList (Text.Utf8.decode x)) ∧
    (pieces.map (·.length + 1)).sum ≤ room

theorem Cut.mono {symbols : List String} {n m : Nat} (h : Cut symbols n) (hle : n ≤ m) : Cut symbols m := by
  obtain ⟨pieces, hp, hsum⟩ := h
  exact ⟨pieces, hp, hsum.trans hle⟩

theorem Cut.cons {symbols : List String} {n : Nat} (h : Cut symbols n) (x : List UInt8) :
    Cut (String.ofList (Text.Utf8.decode x) :: symbols) (x.length + 1 + n) := by
  obtain ⟨pieces, rfl, hsum⟩ := h
  exact ⟨x :: pieces, rfl, by simpa using hsum⟩

/-- Whether a text starts with a symbol. -/
def startsSymbol (text : List Char) : Bool := (text.head?.map isSymbolStart).getD false

theorem startsSymbol_dropWhile (text : List Char) : startsSymbol (text.dropWhile isSymbolChar) = false := by
  cases h : text.dropWhile isSymbolChar with
  | nil => rfl
  | cons c rest =>
    have hc : isSymbolChar c = false := by simpa [h] using List.head?_dropWhile_not isSymbolChar text
    simp only [isSymbolChar, Bool.or_eq_false_iff] at hc
    exact hc.1.1

/-- The symbols of a text are cut from its source. If the text does not start with a symbol, there is a byte before the
first one too. -/
theorem cut_of_scan (line : Nat) (text : List Char) : ∀ {bytes}, Text.Utf8.decode bytes = text →
    Cut ((scan line text).tokens.filterMap (·.token.symbol?)) (bytes.length + (startsSymbol text).toNat) := by
  have skip {c : Char} {rest behind : List Char} {symbols : List String} {bytes : List UInt8}
      (h : Text.Utf8.decode bytes = c :: rest) (hs : behind <:+ rest)
      (ih : ∀ {bytes}, Text.Utf8.decode bytes = behind → Cut symbols (bytes.length + (startsSymbol behind).toNat)) :
      Cut symbols (bytes.length + (startsSymbol (c :: rest)).toNat) := by
    obtain ⟨y, hy, hlength⟩ := Text.Utf8.exists_shorter_of_decode h hs
    have := Bool.toNat_le (startsSymbol behind)
    exact (ih hy).mono (by omega)
  fun_induction scan line text with
  | case1 | case2 | case6 => exact fun _ => ⟨[], by simp, by simp⟩
  | case3 line c rest _ _ ih => exact fun h => skip h (List.suffix_refl rest) ih
  | case4 line rest _ _ ih => exact fun h => skip h (List.dropWhile_suffix inComment) ih
  | case5 line c rest _ _ _ t ends rest' hnext after =>
    rename_i ih
    intro bytes h
    cases t with
    | symbol x =>
      obtain ⟨-, -, -, hstart, hx, rfl⟩ := next_symbol hnext
      have hsplit : Text.Utf8.decode bytes = x.toList ++ rest.dropWhile isSymbolChar := by
        rw [h, hx, List.cons_append, List.takeWhile_append_dropWhile]
      obtain ⟨a, b, rfl, ha, hb⟩ := Text.Utf8.exists_append_of_decode hsplit
      have hcut := (ih hb).cons a
      rw [startsSymbol_dropWhile, ha, String.ofList_toList] at hcut
      refine hcut.mono ?_
      simp [startsSymbol, hstart]
      omega
    | _ => exact skip h (next_suffix hnext) ih

/-! ### Counting -/

/-- Every short list is what some places hold, of which each may be empty. -/
private theorem reduceOption_ofFn {α : Type} {n : Nat} {xs : List α} (h : xs.length ≤ n) :
    (List.ofFn fun i : Fin n => xs[i]?).reduceOption = xs := by
  induction n generalizing xs with
  | zero => simp_all
  | succ n ih =>
    cases xs with
    | nil => simp [List.ofFn_succ]
    | cons x xs => simpa [List.ofFn_succ] using ih (by simpa using h)

/-- Few things can be made from few bytes. -/
theorem length_le_of_short {α : Type} {names : List α} (hn : names.Nodup) {n : Nat} {g : List UInt8 → α}
    (h : ∀ a ∈ names, ∃ x, x.length ≤ n ∧ g x = a) : names.length ≤ 257 ^ n := by
  classical
  have hsub : names.toFinset ⊆ Finset.univ.image fun v : Fin n → Option UInt8 => g (List.ofFn v).reduceOption := by
    intro a ha
    obtain ⟨x, hx, rfl⟩ := h a (List.mem_toFinset.1 ha)
    exact Finset.mem_image.2 ⟨fun i => x[i]?, Finset.mem_univ _, by rw [reduceOption_ofFn hx]⟩
  have hbyte : Fintype.card UInt8 = 256 := FinEnum.card_eq_fintypeCard.symm
  calc names.length = names.toFinset.card := (List.toFinset_card_of_nodup hn).symm
    _ ≤ (Finset.univ : Finset (Fin n → Option UInt8)).card := (Finset.card_le_card hsub).trans Finset.card_image_le
    _ = 257 ^ n := by simp [hbyte]

theorem length_long_le_sum (pieces : List (List UInt8)) :
    9 * (pieces.filter (8 ≤ ·.length)).length ≤ (pieces.map (·.length + 1)).sum := by
  induction pieces with
  | nil => simp
  | cons x rest ih =>
    rw [List.filter_cons, List.map_cons, List.sum_cons]
    split
    · rename_i hx
      simp only [decide_eq_true_eq] at hx
      rw [List.length_cons]
      omega
    · omega

/-- Different names that are made from the symbols of a text are few, compared with the bytes of its source. Those of
seven bytes are few by themselves, and each of the others takes nine bytes with the one that follows. -/
theorem Cut.length_lt {symbols : List String} {room : Nat} (h : Cut symbols room) (hroom : room ≤ 2 ^ 63)
    {f : String → String} {names : List String} (hn : names.Nodup) (hs : ∀ a ∈ names, ∃ x ∈ symbols, f x = a) :
    names.length < 2 ^ 60 := by
  classical
  obtain ⟨pieces, rfl, hsum⟩ := h
  set g : List UInt8 → String := fun x => f (String.ofList (Text.Utf8.decode x))
  let isShort (a : String) : Bool := decide (∃ x : List UInt8, x.length ≤ 7 ∧ g x = a)
  have hshort : (names.filter isShort).length ≤ 257 ^ 7 :=
    length_le_of_short (hn.filter _) fun a ha => by simpa [isShort] using (List.mem_filter.1 ha).2
  have hlong : (names.filter (!isShort ·)).length ≤ (pieces.filter (8 ≤ ·.length)).length := by
    rw [← List.length_map (f := g)]
    refine ((hn.filter _).subperm fun a ha => ?_).length_le
    obtain ⟨ha, hnot⟩ := List.mem_filter.1 ha
    obtain ⟨_, hm, rfl⟩ := hs a ha
    obtain ⟨x, hx, rfl⟩ := List.mem_map.1 hm
    refine List.mem_map.2 ⟨x, List.mem_filter.2 ⟨hx, ?_⟩, rfl⟩
    simp only [isShort, Bool.not_eq_true', decide_eq_false_iff_not, not_exists, not_and] at hnot
    have := mt (hnot x) (not_not.2 rfl)
    simp only [decide_eq_true_eq]
    omega
  have hbytes := length_long_le_sum pieces
  have hsplit := List.length_eq_length_filter_add (l := names) isShort
  omega

end Token

end Arvore
