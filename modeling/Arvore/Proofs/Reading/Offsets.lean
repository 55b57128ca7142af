import Mathlib
import Arvore.Proofs.Reading.Grammar
import Arvore.Proofs.Reading.Room

/-!
# Lines and offsets

A token that is read takes no line end with it but those inside a string, and these are counted (`Token.next_lineEnds`).
So the tokens of a text can be placed by the number of characters before them, and the line of each is one more than the
number of line ends among these characters (`Token.exists_tokenized`). The reader looks at the lines of tokens only to
hand them on: read from offsets instead of lines, a datum has the offsets of its parts where it had their lines
(`Datum.exists_run_of_relined`).
-/

namespace Arvore

/-! ### Line ends inside tokens -/

namespace Token

theorem count_takeWhile {p : Char → Bool} (hp : p '\n' = false) (text : List Char) :
    (text.takeWhile p).count '\n' = 0 := by
  refine List.count_eq_zero.2 fun hm => ?_
  rw [List.mem_takeWhile_imp hm] at hp
  cases hp

/-- What is left of a text when some of its characters, but no line end, have been passed. -/
def Inline (text rest : List Char) : Prop := ∃ body, text = body ++ rest ∧ body.count '\n' = 0

namespace Inline

variable {text rest rest' : List Char}

theorem refl (text : List Char) : Inline text text := ⟨[], rfl, rfl⟩

theorem trans (h : Inline text rest) (h' : Inline rest rest') : Inline text rest' := by
  obtain ⟨body, rfl, hb⟩ := h
  obtain ⟨more, rfl, hm⟩ := h'
  exact ⟨body ++ more, (List.append_assoc ..).symm, by rw [List.count_append, hb, hm]⟩

theorem cons {c : Char} (hc : c ≠ '\n') (h : Inline text rest) : Inline (c :: text) rest := by
  obtain ⟨body, rfl, hb⟩ := h
  exact ⟨c :: body, rfl, by rw [List.count_cons_of_ne hc, hb]⟩

theorem dropWhile {p : Char → Bool} (hp : p '\n' = false) (text : List Char) : Inline text (text.dropWhile p) :=
  ⟨text.takeWhile p, List.takeWhile_append_dropWhile.symm, count_takeWhile hp text⟩

end Inline

theorem isSymbolChar_lineEnd : isSymbolChar '\n' = false := by decide +kernel

theorem isDecimalDigit_lineEnd : Text.isDecimalDigit '\n' = false := by
  have h := isSymbolChar_lineEnd
  simp only [isSymbolChar, Bool.or_eq_false_iff] at h
  exact h.1.2

theorem inline_fraction (text : List Char) : Inline text (fraction text).2 := by
  unfold fraction
  split
  · split
    · rename_i d rest hd
      have hne : d ≠ '\n' := by
        rintro rfl
        rw [isDecimalDigit_lineEnd] at hd
        cases hd
      exact .cons (by decide) (.cons hne (.dropWhile isDecimalDigit_lineEnd rest))
    · exact .refl _
  · exact .refl _

theorem inline_sign (text : List Char) : Inline text (sign text).2 := by
  unfold sign
  split
  · split
    · rename_i c rest hc
      exact .cons (by rintro rfl; cases hc) (.refl rest)
    · exact .refl _
  · exact .refl _

theorem inline_exponent (text : List Char) : Inline text (exponent text).2 := by
  unfold exponent
  split
  · split
    · rename_i c rest hc
      exact .cons (by rintro rfl; cases hc) ((inline_sign rest).trans (.dropWhile isDecimalDigit_lineEnd _))
    · exact .refl _
  · exact .refl _

theorem inline_numberText (c : Char) (rest : List Char) : Inline rest (numberText c rest).2 :=
  (Inline.dropWhile isDecimalDigit_lineEnd rest).trans ((inline_fraction _).trans (inline_exponent _))

/-- The line ends that are counted inside a string are those that stand there. -/
theorem stringBody_lineEnds {text value rest : List Char} {ends : Nat}
    (h : stringBody text = .closed value ends rest) : ∃ body, text = body ++ rest ∧ body.count '\n' = ends := by
  fun_induction stringBody text generalizing value ends rest with
  | case1 | case3 | case4 | case6 => cases h
  | case2 rest =>
    cases h
    exact ⟨['"'], rfl, rfl⟩
  | case5 e text c hc _ _ ih =>
    cases hb : stringBody text with
    | failed => rw [hb] at h; cases h
    | closed value' ends' rest' =>
      rw [hb] at h
      cases h
      obtain ⟨body, rfl, hends⟩ := ih hb
      have he : e ≠ '\n' := by
        rintro rfl
        cases hc
      refine ⟨'\\' :: e :: body, rfl, ?_⟩
      rw [List.count_cons_of_ne (by decide), List.count_cons_of_ne he, hends, Nat.zero_add]
  | case7 c text _ _ _ ih =>
    cases hb : stringBody text with
    | failed => rw [hb] at h; cases h
    | closed value' ends' rest' =>
      rw [hb] at h
      cases h
      obtain ⟨body, rfl, hends⟩ := ih hb
      refine ⟨c :: body, rfl, ?_⟩
      rw [List.count_cons, hends, Nat.add_comm, lineEnd]
      simp only [beq_iff_eq]

/-- The line ends that are counted for a token are those inside it. -/
theorem next_lineEnds {c : Char} {text rest : List Char} {t : Token} {ends : Nat} (hc : c ≠ '\n')
    (h : next c text = .token t ends rest) : ∃ body, text = body ++ rest ∧ (c :: body).count '\n' = ends := by
  simp only [List.count_cons_of_ne hc]
  unfold next at h
  split at h
  · cases h
    exact Inline.refl _
  · split at h
    · split at h
      · rename_i hb
        cases h
        exact stringBody_lineEnds hb
      · cases h
    · split at h
      · cases h
        exact inline_numberText c text
      · split at h
        · cases h
          exact Inline.dropWhile isSymbolChar_lineEnd text
        · cases h

/-! ### Offsets of tokens -/

/-- The tokens of a text, of which the characters `front` have been passed and the characters behind them have not. Each
is placed by the number of characters before it. -/
inductive Tokenized : List Char → List Char → List Placed → Prop
  | finished {front : List Char} : Tokenized front [] []
  | nul {front rest : List Char} : Tokenized front (nul :: rest) []
  | blank {front rest : List Char} {c : Char} {tokens : List Placed} (hnul : c ≠ Token.nul)
      (hblank : Text.isBlank c = true) (h : Tokenized (front ++ [c]) rest tokens) : Tokenized front (c :: rest) tokens
  | comment {front body rest : List Char} {tokens : List Placed} (hrest : (body ++ rest).dropWhile inComment = rest)
      (h : Tokenized (front ++ ';' :: body) rest tokens) : Tokenized front (';' :: (body ++ rest)) tokens
  | token {front body rest : List Char} {c : Char} {t : Token} {ends : Nat} {tokens : List Placed}
      (hnul : c ≠ Token.nul) (hblank : Text.isBlank c = false) (hcomment : c ≠ ';')
      (hnext : next c (body ++ rest) = .token t ends rest)
      (h : Tokenized (front ++ c :: body) rest tokens) :
      Tokenized front (c :: (body ++ rest)) (⟨front.length, t⟩ :: tokens)

/-- The line of the character that stands behind so many others. -/
def lineAt (text : List Char) (offset : Nat) : Nat := 1 + (text.take offset).count '\n'

/-- A token whose number is another one. -/
def Placed.relined (f : Nat → Nat) (t : Placed) : Placed := ⟨f t.line, t.token⟩

theorem lineAt_append (front rest : List Char) : lineAt (front ++ rest) front.length = 1 + front.count '\n' := by
  rw [lineAt, List.take_left]

/-- The line of a token is one more than the number of line ends before it. -/
theorem exists_tokenized {line : Nat} {text : List Char} (front : List Char) (hline : line = 1 + front.count '\n')
    (h : (scan line text).error = none) : ∃ tokens, Tokenized front text tokens ∧
      (scan line text).tokens = tokens.map (Placed.relined (lineAt (front ++ text))) := by
  fun_induction scan line text generalizing front with
  | case1 => exact ⟨[], .finished, rfl⟩
  | case2 => exact ⟨[], .nul, rfl⟩
  | case3 line c rest hnul hblank ih =>
    have hcount : line + lineEnd c = 1 + (front ++ [c]).count '\n' := by
      rw [List.count_append, List.count_singleton, hline, Nat.add_assoc]
      simp only [lineEnd, beq_iff_eq]
    obtain ⟨tokens, ht, heq⟩ := ih _ hcount h
    rw [← List.append_cons] at heq
    exact ⟨tokens, .blank hnul hblank ht, heq⟩
  | case4 line rest hnul hblank ih =>
    obtain ⟨body, hbody, hcount⟩ := Inline.dropWhile (p := inComment) rfl rest
    have hline' : line = 1 + (front ++ ';' :: body).count '\n' := by
      rw [List.count_append, List.count_cons_of_ne (by decide), hcount, hline, Nat.add_zero]
    obtain ⟨tokens, ht, heq⟩ := ih _ hline' h
    rw [List.append_assoc, List.cons_append, ← hbody] at heq
    refine ⟨tokens, ?_, heq⟩
    rw [hbody]
    exact .comment (by rw [← hbody]) ht
  | case5 line c rest hnul hblank hcomment t ends rest' hnext after ih =>
    have hc : c ≠ '\n' := by
      rintro rfl
      exact hblank (by decide +kernel)
    obtain ⟨body, rfl, hends⟩ := next_lineEnds hc hnext
    have hline' : line + ends = 1 + (front ++ c :: body).count '\n' := by
      rw [List.count_append, hends, hline, Nat.add_assoc]
    obtain ⟨tokens, ht, heq⟩ := ih _ hline' h
    rw [List.append_assoc, List.cons_append] at heq
    refine ⟨_, .token hnul (by simpa using hblank) hcomment hnext ht, ?_⟩
    rw [List.map_cons, ← heq, Placed.relined, lineAt_append, ← hline]
  | case6 => cases h

/-- A token starts behind as many characters as its offset says. -/
theorem Tokenized.next_of_mem {front text : List Char} {tokens : List Placed} (h : Tokenized front text tokens) :
    ∀ t ∈ tokens, ∃ c rest ends rest', (front ++ text).drop t.line = c :: rest ∧
      next c rest = .token t.token ends rest' := by
  induction h with
  | finished | nul => simp
  | blank _ _ _ ih | comment _ _ ih => simpa using ih
  | @token front body rest c t ends tokens _ _ _ hnext _ ih =>
    refine List.forall_mem_cons.2 ⟨⟨c, body ++ rest, ends, rest, List.drop_left, hnext⟩, ?_⟩
    simpa using ih

theorem Tokenized.length_le_of_mem {front text : List Char} {tokens : List Placed} (h : Tokenized front text tokens) :
    ∀ t ∈ tokens, front.length ≤ t.line := by
  induction h with
  | finished | nul => simp
  | blank _ _ _ ih | comment _ _ ih =>
    intro t ht
    exact (List.length_append ▸ Nat.le_add_right _ _).trans (ih t ht)
  | token _ _ _ _ _ ih =>
    refine List.forall_mem_cons.2 ⟨le_rfl, fun t ht => ?_⟩
    exact (List.length_append ▸ Nat.le_add_right _ _).trans (ih t ht)

/-- No two tokens have the same offset. -/
theorem Tokenized.nodup_offsets {front text : List Char} {tokens : List Placed} (h : Tokenized front text tokens) :
    (tokens.map Placed.line).Nodup := by
  induction h with
  | finished | nul => exact List.nodup_nil
  | blank _ _ _ ih | comment _ _ ih => exact ih
  | token _ _ _ _ h ih =>
    refine List.nodup_cons.2 ⟨fun hm => ?_, ih⟩
    obtain ⟨t, ht, heq⟩ := List.mem_map.1 hm
    have hle := h.length_le_of_mem t ht
    rw [heq, List.length_append, List.length_cons] at hle
    dsimp only at hle
    omega

end Token

/-! ### Offsets in bytes -/

namespace Text.Utf8

/-- The number of bytes that so many characters at the start of a source have. -/
def offset : Nat → List UInt8 → Nat
  | 0, _ | _, [] => 0
  | k + 1, a :: rest => 1 + (first a rest).2 + offset k (rest.drop (first a rest).2)

private theorem ofNat_eq_lineEnd_iff {n : Nat} : Char.ofNat n = '\n' ↔ n = 10 := by
  constructor
  · intro h
    have hn := congrArg Char.toNat h
    rw [Char.toNat_ofNat] at hn
    split at hn
    · exact hn
    · cases hn
  · rintro rfl
    rfl

theorem count_of_high {bytes : List UInt8} {c : Char} (hc : c ≠ '\n') (h : ∀ b ∈ bytes, 0x80 ≤ b) :
    bytes.count 10 = [c].count '\n' := by
  rw [List.count_eq_zero.2 fun hm => absurd (h 10 hm) (by decide), List.count_singleton, if_neg (by simpa using hc)]

/-- A line end has one byte, and this byte belongs to no other character. -/
theorem count_first (a : UInt8) (rest : List UInt8) :
    (a :: rest.take (first a rest).2).count 10 = [(first a rest).1].count '\n' := by
  fun_cases first a rest with
  | case1 ha =>
    have h : a = 10 ↔ Char.ofNat a.toNat = '\n' := by
      rw [ofNat_eq_lineEnd_iff]
      exact UInt8.toNat_inj.symm
    simp [List.count_singleton, h]
  | case2 ha htwo b tail hb =>
    simp only [isTail, Bool.and_eq_true, decide_eq_true_eq] at htwo hb
    refine count_of_high (fun h => ?_) ?_
    · have hbits : 0xC2 ≤ a.toNat := htwo.1
      dsimp only at h
      generalize hx : a.toNat - 0xC0 = x at h
      have h : [b].foldl (fun n b => n * 64 + (b.toNat - 0x80)) x = 10 := ofNat_eq_lineEnd_iff.1 h
      simp only [List.foldl_cons, List.foldl_nil] at h
      omega
    · simp only [List.take_succ_cons, List.take_zero, List.forall_mem_cons]
      exact ⟨UInt8.not_lt.1 ha, hb.1, by simp⟩
  | case5 ha _ hthree b c tail low high hb =>
    simp only [isTail, Bool.and_eq_true, decide_eq_true_eq] at hthree hb
    have hlow : 0x80 ≤ low := by
      unfold low
      split <;> decide
    refine count_of_high (fun h => ?_) ?_
    · have hbits : 0xE0 ≤ a.toNat := hthree.1
      have hshort : a.toNat = 0xE0 → 0xA0 ≤ b.toNat := by
        intro h
        have hl : low = 0xA0 := if_pos (UInt8.toNat_inj.1 h)
        exact UInt8.le_iff_toNat_le.1 (hl ▸ hb.1.1)
      dsimp only at h
      generalize hx : a.toNat - 0xE0 = x at h
      have h : [b, c].foldl (fun n b => n * 64 + (b.toNat - 0x80)) x = 10 := ofNat_eq_lineEnd_iff.1 h
      simp only [List.foldl_cons, List.foldl_nil] at h
      omega
    · simp only [List.take_succ_cons, List.take_zero, List.forall_mem_cons]
      exact ⟨UInt8.not_lt.1 ha, UInt8.le_trans hlow hb.1.1, hb.2.1, by simp⟩
  | case8 ha _ _ hfour b c d tail low high hb =>
    simp only [isTail, Bool.and_eq_true, decide_eq_true_eq] at hfour hb
    have hlow : 0x80 ≤ low := by
      unfold low
      split <;> decide
    refine count_of_high (fun h => ?_) ?_
    · have hbits : 0xF0 ≤ a.toNat := hfour.1
      have hshort : a.toNat = 0xF0 → 0x90 ≤ b.toNat := by
        intro h
        have hl : low = 0x90 := if_pos (UInt8.toNat_inj.1 h)
        exact UInt8.le_iff_toNat_le.1 (hl ▸ hb.1.1.1)
      dsimp only at h
      generalize hx : a.toNat - 0xF0 = x at h
      have h : [b, c, d].foldl (fun n b => n * 64 + (b.toNat - 0x80)) x = 10 := ofNat_eq_lineEnd_iff.1 h
      simp only [List.foldl_cons, List.foldl_nil] at h
      omega
    · simp only [List.take_succ_cons, List.take_zero, List.forall_mem_cons]
      exact ⟨UInt8.not_lt.1 ha, UInt8.le_trans hlow hb.1.1.1, hb.1.2.1, hb.2.1, by simp⟩
  | _ =>
    have ha : ¬ a < 0x80 := by assumption
    exact count_of_high (by decide) (by simpa using ha)

/-- As many line ends stand before a character as there are bytes of line ends before its own bytes. -/
theorem count_take_offset (k : Nat) (source : List UInt8) :
    (source.take (offset k source)).count 10 = ((decode source).take k).count '\n' := by
  induction k generalizing source with
  | zero => rfl
  | succ k ih =>
    cases source with
    | nil => rw [decode]; rfl
    | cons a rest =>
      have hsplit : (a :: rest).take (offset (k + 1) (a :: rest)) = (a :: rest.take (first a rest).2) ++
          (rest.drop (first a rest).2).take (offset k (rest.drop (first a rest).2)) := by
        rw [offset, Nat.add_assoc, Nat.add_comm 1, List.take_succ_cons, List.take_add, List.cons_append]
      rw [hsplit, List.count_append, count_first, ih, decode, List.take_succ_cons, ← List.count_append,
        List.singleton_append]

end Text.Utf8

/-! ### Offsets of data -/

namespace Datum

open Token (Placed)

mutual

/-- The datum with another number in the place of each line. -/
def relined (f : Nat → Nat) : Datum → Datum
  | symbol line text => symbol (f line) text
  | string line text => string (f line) text
  | number line text => number (f line) text
  | list line metadata items => list (f line) (relinedEntries f metadata) (relinedAll f items)
  | array line items => array (f line) (relinedAll f items)
  | map line entries => map (f line) (relinedEntries f entries)

/-- Several data with other numbers. -/
def relinedAll (f : Nat → Nat) : List Datum → List Datum
  | [] => []
  | d :: rest => relined f d :: relinedAll f rest

/-- Entries whose values have other numbers. -/
def relinedEntries (f : Nat → Nat) : List (String × Datum) → List (String × Datum)
  | [] => []
  | (key, d) :: rest => (key, relined f d) :: relinedEntries f rest

end

mutual

/-- A datum and all data in it: its items, the values of its entries and of its metadata, and theirs. -/
def nodes : Datum → List Datum
  | list line metadata items => list line metadata items :: (nodesEntries metadata ++ nodesAll items)
  | array line items => array line items :: nodesAll items
  | map line entries => map line entries :: nodesEntries entries
  | d => [d]

/-- Several data and all data in them. -/
def nodesAll : List Datum → List Datum
  | [] => []
  | d :: rest => nodes d ++ nodesAll rest

/-- The values of some entries and all data in them. -/
def nodesEntries : List (String × Datum) → List Datum
  | [] => []
  | (_, d) :: rest => nodes d ++ nodesEntries rest

end

section Relined

variable (f : Nat → Nat)

theorem line_relined (d : Datum) : (d.relined f).line = f d.line := by
  cases d <;> rw [relined] <;> rfl

theorem relinedAll_eq_map (ds : List Datum) : relinedAll f ds = ds.map (relined f) := by
  induction ds with
  | nil => rw [relinedAll, List.map_nil]
  | cons d rest ih => rw [relinedAll, ih, List.map_cons]

theorem relinedAll_reverse (ds : List Datum) : relinedAll f ds.reverse = (relinedAll f ds).reverse := by
  rw [relinedAll_eq_map, relinedAll_eq_map, List.map_reverse]

theorem relinedEntries_eq_map (es : List (String × Datum)) :
    relinedEntries f es = es.map fun e => (e.1, e.2.relined f) := by
  induction es with
  | nil => rw [relinedEntries, List.map_nil]
  | cons e rest ih => rw [relinedEntries, ih, List.map_cons]

theorem relinedEntries_reverse (es : List (String × Datum)) :
    relinedEntries f es.reverse = (relinedEntries f es).reverse := by
  rw [relinedEntries_eq_map, relinedEntries_eq_map, List.map_reverse]

mutual

theorem nodes_relined : ∀ d : Datum, (d.relined f).nodes = d.nodes.map (relined f)
  | symbol .. | string .. | number .. => by simp only [relined, nodes, List.map_cons, List.map_nil]
  | list _ metadata items => by
    simp only [relined, nodes, List.map_cons, List.map_append, nodesEntries_relined metadata, nodesAll_relined items]
  | array _ items => by simp only [relined, nodes, List.map_cons, nodesAll_relined items]
  | map _ entries => by simp only [relined, nodes, List.map_cons, nodesEntries_relined entries]

theorem nodesAll_relined : ∀ ds : List Datum, nodesAll (relinedAll f ds) = (nodesAll ds).map (relined f)
  | [] => by rw [relinedAll, nodesAll, List.map_nil]
  | d :: rest => by
    rw [relinedAll, nodesAll, nodesAll, List.map_append, nodes_relined d, nodesAll_relined rest]

theorem nodesEntries_relined : ∀ es : List (String × Datum),
    nodesEntries (relinedEntries f es) = (nodesEntries es).map (relined f)
  | [] => by rw [relinedEntries, nodesEntries, List.map_nil]
  | (key, d) :: rest => by
    rw [relinedEntries, nodesEntries, nodesEntries, List.map_append, nodes_relined d, nodesEntries_relined rest]

end

theorem relinedEntries_setEntry (key : String) (d : Datum) (es : List (String × Datum)) :
    relinedEntries f (setEntry key d es) = setEntry key (d.relined f) (relinedEntries f es) := by
  induction es with
  | nil => simp only [setEntry, relinedEntries]
  | cons e rest ih =>
    rw [setEntry, relinedEntries, setEntry]
    split
    · rw [relinedEntries]
    · rw [relinedEntries, ih]

theorem relinedEntries_mergeEntries (old new : List (String × Datum)) :
    relinedEntries f (mergeEntries old new) = mergeEntries (relinedEntries f old) (relinedEntries f new) := by
  induction new generalizing old with
  | nil => rw [relinedEntries, mergeEntries, mergeEntries, List.foldl_nil, List.foldl_nil]
  | cons e rest ih =>
    rw [mergeEntries, List.foldl_cons, ← mergeEntries, ih, relinedEntries_setEntry, relinedEntries]
    rfl

/-- An open structure with other numbers. -/
def Frame.relined : Frame → Frame
  | list line metadata items => .list (f line) (relinedEntries f metadata) (relinedAll f items)
  | caret line metadata items => .caret (f line) (relinedEntries f metadata) (relinedAll f items)
  | array line items => .array (f line) (relinedAll f items)
  | key line entries => .key (f line) (relinedEntries f entries)
  | colon line entries name => .colon (f line) (relinedEntries f entries) name
  | value line entries name => .value (f line) (relinedEntries f entries) name
  | comma line entries => .comma (f line) (relinedEntries f entries)

/-- A state of the reader with other numbers. -/
def State.relined : State → State
  | reading stack => .reading (stack.map (Frame.relined f))
  | done d => .done (d.relined f)

theorem complete_relined (d : Datum) (stack : List Frame) :
    complete (d.relined f) (stack.map (Frame.relined f)) = (complete d stack).relined f := by
  cases stack with
  | nil => rfl
  | cons frame rest =>
    cases frame with
    | caret line metadata items =>
      cases d with
      | map l entries =>
        simp only [Datum.relined, List.map_cons, Frame.relined, complete, State.relined, relinedEntries_mergeEntries]
      | _ => simp only [Datum.relined, List.map_cons, Frame.relined, complete, State.relined, relinedAll]
    | _ =>
      simp only [List.map_cons, Frame.relined, complete, State.relined, relinedAll, relinedEntries]

private theorem ok_complete_relined {d d' : Datum} (h : d.relined f = d') (stack : List Frame) :
    Except.ok (complete d' (stack.map (Frame.relined f))) =
      (Except.ok (complete d stack) : Except Expectation State).map (State.relined f) := by
  rw [← h, complete_relined]
  rfl

theorem begin_relined (line : Nat) (stack : List Frame) (token : Token) :
    begin (f line) (stack.map (Frame.relined f)) token = (begin line stack token).map (State.relined f) := by
  cases token with
  | symbol text | string text | number text => exact ok_complete_relined f (by rw [relined]) stack
  | _ => simp only [begin, Except.map, State.relined, List.map_cons, Frame.relined, relinedEntries, relinedAll]

/-- The reader takes a token with any number alike. -/
theorem step_relined (line : Nat) (token : Token) (state : State) :
    step (f line) token (state.relined f) = (step line token state).map (State.relined f) := by
  cases state with
  | done d => rfl
  | reading stack =>
    cases stack with
    | nil => exact begin_relined f line [] token
    | cons frame stack =>
      have hbegin := begin_relined f line (frame :: stack) token
      cases frame with
      | list start metadata items =>
        cases token with
        | rightParen => exact ok_complete_relined f (by rw [relined, relinedAll_reverse]) stack
        | caret => rfl
        | _ => exact hbegin
      | caret start metadata items =>
        cases token <;> rfl
      | array start items =>
        cases token with
        | rightBracket => exact ok_complete_relined f (by rw [relined, relinedAll_reverse]) stack
        | _ => exact hbegin
      | key start entries =>
        cases token with
        | rightBrace => exact ok_complete_relined f (by rw [relined, relinedEntries_reverse]) stack
        | _ => rfl
      | colon start entries name => cases token <;> rfl
      | value start entries name => exact hbegin
      | comma start entries =>
        cases token with
        | rightBrace => exact ok_complete_relined f (by rw [relined, relinedEntries_reverse]) stack
        | _ => rfl

variable {f}

/-- What is read with other numbers is read without them. -/
theorem exists_run_of_relined {state : State} {tokens : List Placed} {d : Datum}
    (h : run (state.relined f) (tokens.map (Placed.relined f)) = .ok d) :
    ∃ o, run state tokens = .ok o ∧ o.relined f = d := by
  induction tokens generalizing state with
  | nil =>
    rw [List.map_nil, run, mapError_eq_ok_iff] at h
    cases state with
    | done o =>
      cases h
      exact ⟨o, rfl, rfl⟩
    | reading stack =>
      rcases stack with _ | ⟨_ | _ | _ | _ | _ | _ | _, stack⟩ <;> cases h
  | cons t rest ih =>
    rw [List.map_cons, run, Placed.relined, step_relined] at h
    rw [run]
    cases hs : step t.line t.token state with
    | error expected =>
      rw [hs] at h
      cases h
    | ok next =>
      rw [hs] at h
      exact ih h

/-- What is read without other numbers is read with them. -/
theorem Goes.relined {state last : State} {tokens : List Placed} (h : Goes state tokens last) :
    Goes (state.relined f) (tokens.map (Placed.relined f)) (last.relined f) := by
  induction h with
  | nil => exact .nil
  | cons hstep _ ih =>
    refine .cons ?_ ih
    rw [Placed.relined, step_relined, hstep]
    rfl

theorem Derives.relined {tokens : List Placed} {d : Datum} (h : Derives tokens d) :
    Derives (tokens.map (Placed.relined f)) (d.relined f) := by
  have hgoes := (h.goes [] trivial).relined (f := f)
  exact run_eq_ok_iff_derives.1 (run_eq_ok_iff.2 hgoes)

end Relined

/-- A datum that was read from a text is the tree of its tokens with their offsets, up to the lines of the offsets. -/
theorem exists_offsets {text : List Char} {d : Datum} (h : parse text = .ok d) :
    ∃ tokens o, Token.Tokenized [] text tokens ∧
      (Token.scan 1 text).tokens = tokens.map (Placed.relined (Token.lineAt text)) ∧ Derives tokens o ∧
      d = o.relined (Token.lineAt text) := by
  obtain ⟨hrun, herror⟩ := parse_eq_ok_iff.1 h
  have hfirst : 1 = 1 + ([] : List Char).count '\n' := rfl
  obtain ⟨tokens, htokens, heq⟩ := Token.exists_tokenized [] hfirst herror
  rw [List.nil_append] at heq
  rw [heq] at hrun
  have hstart : State.relined (Token.lineAt text) (.reading []) = .reading [] := rfl
  rw [← hstart] at hrun
  obtain ⟨o, ho, rfl⟩ := exists_run_of_relined hrun
  exact ⟨tokens, o, htokens, heq, run_eq_ok_iff_derives.1 ho, rfl⟩

/-! ### First characters of data -/

/-- The token that a datum starts with. -/
def opening : Datum → Token
  | symbol _ text => .symbol text
  | string _ text => .string text
  | number _ text => .number text
  | list .. => .leftParen
  | array .. => .leftBracket
  | map .. => .leftBrace

/-- The first token of a datum, in its place. -/
def opens (d : Datum) : Placed := ⟨d.line, d.opening⟩

theorem mem_nodesAll {n : Datum} {ds : List Datum} : n ∈ nodesAll ds ↔ ∃ d ∈ ds, n ∈ d.nodes := by
  induction ds with
  | nil => simp [nodesAll]
  | cons d rest ih => simp [nodesAll, ih]

theorem mem_nodesEntries {n : Datum} {es : List (String × Datum)} :
    n ∈ nodesEntries es ↔ ∃ e ∈ es, n ∈ e.2.nodes := by
  induction es with
  | nil => simp [nodesEntries]
  | cons e rest ih => simp [nodesEntries, ih]

/-- Nothing is merged that was not written. -/
theorem Merges.mem {es merged : List (String × Datum)} (h : Merges es merged) : ∀ e ∈ merged, e ∈ es := by
  have key (old new : List (String × Datum)) : ∀ e ∈ Datum.mergeEntries old new, e ∈ old ∨ e ∈ new := by
    induction new generalizing old with
    | nil => exact fun _ he => .inl he
    | cons e rest ih =>
      intro e' he'
      rcases ih (Datum.setEntry e.1 e.2 old) e' he' with he | he
      · rcases mem_setEntry he with rfl | he
        · exact .inr List.mem_cons_self
        · exact .inl he
      · exact .inr (List.mem_cons_of_mem _ he)
  have hmerged : Datum.mergeEntries [] es = merged := (Merges.nil.mergeEntries es).eq h
  intro e he
  exact (key [] es e (hmerged ▸ he)).resolve_left List.not_mem_nil

theorem nodesEntries_eq_flatMap (es : List (String × Datum)) : nodesEntries es = es.flatMap fun e => e.2.nodes := by
  induction es with
  | nil => rw [nodesEntries, List.flatMap_nil]
  | cons e rest ih => rw [nodesEntries, ih, List.flatMap_cons]

theorem nodesEntries_append (es fs : List (String × Datum)) :
    nodesEntries (es ++ fs) = nodesEntries es ++ nodesEntries fs := by
  simp only [nodesEntries_eq_flatMap, List.flatMap_append]

theorem nodesAll_append (as bs : List Datum) : nodesAll (as ++ bs) = nodesAll as ++ nodesAll bs := by
  induction as with
  | nil => rw [nodesAll, List.nil_append, List.nil_append]
  | cons a as ih => rw [List.cons_append, nodesAll, nodesAll, ih, List.append_assoc]

/-- The nodes of what is merged are among those that were written, each as often at most. -/
theorem Merges.nodes_subperm {es merged : List (String × Datum)} (h : Merges es merged) :
    (nodesEntries merged).Subperm (nodesEntries es) := by
  have hnodup : merged.Nodup := .of_map Prod.fst (h.keys ▸ nodup_eraseDups _)
  obtain ⟨kept, hperm, hsub⟩ := List.subperm_of_subset hnodup h.mem
  rw [nodesEntries_eq_flatMap, nodesEntries_eq_flatMap]
  exact ⟨_, hperm.flatMap fun _ _ => .refl _, hsub.flatMap _⟩

/-- The nodes start with tokens among these, each with one of its own. -/
def Opened (tokens : List Placed) (nodes : List Datum) : Prop := (nodes.map opens).Subperm tokens

namespace Opened

variable {tokens more : List Placed} {ns ms : List Datum}

theorem nil : Opened tokens [] := List.nil_subperm

theorem cons (n : Datum) (h : Opened tokens ns) : Opened (n.opens :: tokens) (n :: ns) := (List.subperm_cons _).2 h

theorem append (h : Opened tokens ns) (h' : Opened more ms) : Opened (tokens ++ more) (ns ++ ms) := by
  rw [Opened, List.map_append]
  exact List.Subperm.append h h'

theorem subperm (h : Opened tokens ns) (hs : ms.Subperm ns) : Opened tokens ms := by
  obtain ⟨kept, hperm, hsub⟩ := hs
  exact .trans ⟨_, hperm.map opens, hsub.map opens⟩ h

theorem mono (h : Opened tokens ns) (hs : tokens.Sublist more) : Opened more ns := .trans h hs.subperm

theorem tail {n : Datum} (h : Opened tokens (n :: ns)) : Opened tokens ns :=
  h.subperm (List.sublist_cons_self n ns).subperm

theorem mem (h : Opened tokens ns) {n : Datum} (hn : n ∈ ns) : n.opens ∈ tokens :=
  List.Subperm.subset h (List.mem_map_of_mem hn)

/-- Where no two tokens have the same number, no two nodes have. -/
theorem nodup_lines (h : Opened tokens ns) (hn : (tokens.map Placed.line).Nodup) : (ns.map line).Nodup := by
  obtain ⟨kept, hperm, hsub⟩ := h
  have hkept := (hperm.map Placed.line).nodup_iff.1 (hn.sublist (hsub.map Placed.line))
  rwa [List.map_map] at hkept

end Opened

mutual

theorem Derives.opened : ∀ {tokens : List Placed} {d : Datum}, Derives tokens d → Opened tokens d.nodes
  | _, _, .symbol | _, _, .string | _, _, .number => by
    simp only [nodes]
    exact .cons _ .nil
  | _, _, @Derives.list line line' _ parts metadata h hm => by
    rw [nodes]
    refine (Opened.cons (.list line metadata (Part.items parts)) ?_).mono (List.sublist_append_left _ _)
    exact h.opened.subperm (hm.nodes_subperm.append (.refl _))
  | _, _, @Derives.array line line' _ items h => by
    rw [nodes]
    exact (Opened.cons (.array line items) h.opened).mono (List.sublist_append_left _ _)
  | _, _, .map h => by
    rw [nodes]
    exact h.opened

theorem DerivesItems.opened : ∀ {tokens : List Placed} {items : List Datum}, DerivesItems tokens items →
    Opened tokens (nodesAll items)
  | _, _, .nil => by
    rw [nodesAll]
    exact .nil
  | _, _, .snoc h hd => by
    rw [nodesAll_append, nodesAll, nodesAll, List.append_nil]
    exact h.opened.append hd.opened

theorem DerivesParts.opened : ∀ {tokens : List Placed} {parts : List Part}, DerivesParts tokens parts →
    Opened tokens (nodesEntries (Part.entries parts) ++ nodesAll (Part.items parts))
  | _, _, .nil => by
    simp only [Part.entries, Part.items, List.flatMap_nil, List.filterMap_nil, nodesEntries, nodesAll]
    exact .nil
  | _, _, .item h hd => by
    rw [Part.items_snoc_item, Part.entries_snoc_item, nodesAll_append, ← List.append_assoc, nodesAll, nodesAll,
      List.append_nil]
    exact h.opened.append hd.opened
  | _, _, .metadata h hm => by
    rw [Part.items_snoc_metadata, Part.entries_snoc_metadata, nodesEntries_append, List.append_assoc]
    -- the values in the last map stand behind the items
    refine (h.opened.append (hm.opened.tail.mono (List.sublist_cons_self _ _))).subperm ?_
    rw [List.append_assoc]
    exact (List.perm_append_comm.append_left _).subperm

theorem DerivesMap.opened : ∀ {line : Nat} {tokens : List Placed} {entries : List (String × Datum)},
    DerivesMap line tokens entries → Opened tokens (.map line entries :: nodesEntries entries)
  | line, _, _, .empty => by
    rw [nodesEntries]
    exact .cons (.map line []) .nil
  | line, _, entries, .entries h | line, _, entries, .trailing h =>
    (Opened.cons (.map line entries) h.opened).mono (List.sublist_append_left _ _)

theorem DerivesEntries.opened : ∀ {tokens : List Placed} {entries : List (String × Datum)},
    DerivesEntries tokens entries → Opened tokens (nodesEntries entries)
  | _, _, .one hd => by
    rw [nodesEntries, nodesEntries, List.append_nil]
    exact hd.opened.mono (by simp)
  | _, _, .more h hd => by
    rw [nodesEntries_append, nodesEntries, nodesEntries, List.append_nil]
    refine h.opened.append (hd.opened.mono ?_)
    exact ((List.sublist_cons_self _ _).cons _).cons _

end

/-! ### Lines of data -/

/-- The text starts with the first token of the datum. -/
def Starts (d : Datum) (text : List Char) : Prop :=
  ∃ c rest ends rest', text = c :: rest ∧ Token.next c rest = .token d.opening ends rest'

/-- The node `n` of a datum that was read from a source stands where `m` says: it starts behind as many characters as is
the number of `m`, and its own number is one more than the number of line ends among these characters, which is also one
more than the number of their bytes that are line ends. -/
structure StandsAt (source : List UInt8) (n m : Datum) : Prop where
  starts : m.Starts ((Text.Utf8.decode source).drop m.line)
  line : n.line = 1 + ((Text.Utf8.decode source).take m.line).count '\n'
  bytes : n.line = 1 + (source.take (Text.Utf8.offset m.line source)).count 10

/-- The lines in a datum are exact. Its text is cut into tokens with offsets, these are derived from the grammar with a
datum `o` that has offsets for lines, and the lines of all nodes are those of the offsets. -/
theorem lines_count_newlines {source : List UInt8} {d : Datum} (h : parse (Text.Utf8.decode source) = .ok d) :
    ∃ tokens o, Token.Tokenized [] (Text.Utf8.decode source) tokens ∧ Derives tokens o ∧
      d = o.relined (Token.lineAt (Text.Utf8.decode source)) ∧
      List.Forall₂ (StandsAt source) d.nodes o.nodes := by
  obtain ⟨tokens, o, htokens, -, hderives, rfl⟩ := exists_offsets h
  refine ⟨tokens, o, htokens, hderives, rfl, ?_⟩
  rw [nodes_relined, List.forall₂_map_left_iff, List.forall₂_same]
  intro m hm
  have hline := line_relined (Token.lineAt (Text.Utf8.decode source)) m
  refine ⟨?_, hline, ?_⟩
  · obtain ⟨c, rest, ends, rest', hdrop, hnext⟩ := htokens.next_of_mem _ (hderives.opened.mem hm)
    exact ⟨c, rest, ends, rest', hdrop, hnext⟩
  · rw [Text.Utf8.count_take_offset]
    exact hline

/-- A comment with a byte that stands for no character, a blank of two bytes, a string over two lines, metadata and a
comment inside a list. -/
def multilined : List UInt8 :=
  "; \u00FF\n\u00C2\u00A0(a \"x\ny\"\n ^\x7bk: 1,\n m: (b)\x7d [c ; d\n e])".toList.map fun c => c.toNat.toUInt8

theorem multilined_lines : ∃ d tokens o, parse (Text.Utf8.decode multilined) = .ok d ∧
    d.nodes.map Datum.line = [2, 4, 5, 5, 2, 2, 5, 5, 6] ∧
    Token.Tokenized [] (Text.Utf8.decode multilined) tokens ∧ Derives tokens o ∧
    d = o.relined (Token.lineAt (Text.Utf8.decode multilined)) ∧
    List.Forall₂ (StandsAt multilined) d.nodes o.nodes := by
  obtain ⟨d, hd, hlines⟩ : ∃ d, parse (Text.Utf8.decode multilined) = .ok d ∧
      d.nodes.map Datum.line = [2, 4, 5, 5, 2, 2, 5, 5, 6] := by
    apply exists_of_literal (g := fun text => parse (Text.Utf8.decode (text.map fun c => c.toNat.toUInt8)))
    decide +kernel
  obtain ⟨tokens, o, htokens, ho, heq, hnodes⟩ := lines_count_newlines hd
  exact ⟨d, tokens, o, hd, hlines, htokens, ho, heq, hnodes⟩

end Datum

end Arvore
