import Mathlib
import Arvore.Proofs.Reading.Grammar
import Arvore.Proofs.Reading.Offsets

/-!
# Metadata of lists

A list may have maps behind carets at any place among its items, and a key may come several times in one map or in
several. What the reader makes of such a list is said by its parts (`Comprises`): each key that was written stands once
in the metadata, where it came first, with the value that was written last, and the items are the parts that are no
maps behind carets.

To speak of all lists of a datum, however deep, every node is traced to the tokens that the reader made it of
(`Derives.passes`). Two lists may be equal and on one line, and are told apart by their offsets (`ListAt`).
-/

namespace Arvore.Datum

open Token (Placed)

/-! ### The last value of a key -/

/-- Among entries in the order of the text, the last one for the key has this value. -/
def WrittenLast (entries : List (String × Datum)) (key : String) (value : Datum) : Prop :=
  ∃ before after, entries = before ++ (key, value) :: after ∧ key ∉ after.map Prod.fst

theorem not_mem_keys_iff {entries : List (String × Datum)} {key : String} :
    key ∉ entries.map Prod.fst ↔ ∀ e ∈ entries, (key != e.1) = true := by
  simp only [← List.forall_mem_ne, List.forall_mem_map, bne_iff_ne, ne_eq]

theorem lookup_reverse_eq_some_iff {entries : List (String × Datum)} {key : String} {value : Datum} :
    entries.reverse.lookup key = some value ↔ WrittenLast entries key value := by
  rw [List.lookup_eq_some_iff]
  constructor
  · rintro ⟨after, before, heq, hnew⟩
    refine ⟨before.reverse, after.reverse, by simpa using congrArg List.reverse heq, ?_⟩
    rwa [List.map_reverse, List.mem_reverse, not_mem_keys_iff]
  · rintro ⟨before, after, rfl, hnew⟩
    refine ⟨after.reverse, before.reverse, by simp, ?_⟩
    rwa [← not_mem_keys_iff, List.map_reverse, List.mem_reverse]

theorem lookup_reverse_eq_none_iff {entries : List (String × Datum)} {key : String} :
    entries.reverse.lookup key = none ↔ key ∉ entries.map Prod.fst := by
  rw [List.lookup_eq_none_iff, ← List.mem_reverse, ← List.map_reverse, not_mem_keys_iff]

/-- The list `n` is what its parts come to. -/
structure Comprises (n : Datum) (parts : List Part) : Prop where
  /-- no key comes twice -/
  distinct : (n.metadata.map Prod.fst).Nodup
  /-- the keys are those of the maps behind carets, in the order in which they come first -/
  keys : n.metadata.map Prod.fst = ((Part.entries parts).map Prod.fst).eraseDups
  /-- under a key stands the value that was written last -/
  value : ∀ key value, n.metadata? key = some value ↔ WrittenLast (Part.entries parts) key value
  /-- nothing stands under a key that was never written -/
  absent : ∀ key, n.metadata? key = none ↔ key ∉ (Part.entries parts).map Prod.fst
  /-- the items are the other parts -/
  items : n.items = Part.items parts

theorem Merges.comprises {parts : List Part} {metadata : List (String × Datum)}
    (h : Merges (Part.entries parts) metadata) (line : Nat) :
    Comprises (.list line metadata (Part.items parts)) parts where
  distinct := h.keys ▸ nodup_eraseDups _
  keys := h.keys
  value key value := by
    rw [← lookup_reverse_eq_some_iff, ← h.value]
    rfl
  absent key := by
    rw [← lookup_reverse_eq_none_iff, ← h.value]
    rfl
  items := rfl

/-! ### Where a node was read -/

/-- On its way to the state `last` the reader makes the datum `n` of the tokens `own`: behind the tokens `front` it
waits for a datum, with the tokens `own` it completes `n`, and it goes on with the tokens `behind`. -/
def Makes (state : State) (front own behind : List Placed) (n : Datum) (last : State) : Prop :=
  ∃ stack, Receptive stack ∧ Goes state front (.reading stack) ∧ Goes (.reading stack) own (complete n stack) ∧
    Goes (complete n stack) behind last

/-- Some of the tokens with which the reader goes from one state to another are a derivation of `n`, and it makes `n` of
them. -/
def Passes (state : State) (tokens : List Placed) (last : State) (n : Datum) : Prop :=
  ∃ front own behind, tokens = front ++ own ++ behind ∧ Derives own n ∧ Makes state front own behind n last

namespace Passes

variable {state mid last : State} {a b : List Placed} {n : Datum}

/-- A datum is made of all its tokens. -/
theorem whole {stack : List Frame} (h : Derives a n) (hs : Receptive stack) :
    Passes (.reading stack) a (complete n stack) n :=
  ⟨[], a, [], by simp, h, stack, hs, .nil, h.goes stack hs, .nil⟩

theorem after (hg : Goes state a mid) (h : Passes mid b last n) : Passes state (a ++ b) last n := by
  obtain ⟨front, own, behind, rfl, hd, stack, hs, hfront, hown, hbehind⟩ := h
  exact ⟨a ++ front, own, behind, by simp, hd, stack, hs, hg.append hfront, hown, hbehind⟩

theorem cons {t : Placed} (hstep : step t.line t.token state = .ok mid) (h : Passes mid a last n) :
    Passes state (t :: a) last n := .after (.single hstep) h

theorem before (h : Passes state a mid n) (hg : Goes mid b last) : Passes state (a ++ b) last n := by
  obtain ⟨front, own, behind, rfl, hd, stack, hs, hfront, hown, hbehind⟩ := h
  exact ⟨front, own, behind ++ b, by simp, hd, stack, hs, hfront, hown, hbehind.append hg⟩

end Passes

theorem mem_nodesAll_snoc {n d : Datum} {ds : List Datum} :
    n ∈ nodesAll (ds ++ [d]) ↔ n ∈ nodesAll ds ∨ n ∈ d.nodes := by
  simp [mem_nodesAll, or_and_right, exists_or]

theorem mem_nodesEntries_append {n : Datum} {es fs : List (String × Datum)} :
    n ∈ nodesEntries (es ++ fs) ↔ n ∈ nodesEntries es ∨ n ∈ nodesEntries fs := by
  simp only [mem_nodesEntries, List.mem_append, or_and_right, exists_or]

theorem mem_nodesEntries_singleton {n d : Datum} {key : String} : n ∈ nodesEntries [(key, d)] ↔ n ∈ d.nodes := by
  simp [mem_nodesEntries]

theorem Merges.mem_nodesEntries {n : Datum} {es merged : List (String × Datum)} (h : Merges es merged)
    (hn : n ∈ nodesEntries merged) : n ∈ nodesEntries es := by
  obtain ⟨e, he, hn⟩ := Datum.mem_nodesEntries.1 hn
  exact Datum.mem_nodesEntries.2 ⟨e, h.mem e he, hn⟩

mutual

/-- Where a datum may stand, the reader that takes the tokens of a derivation makes every node of its tree. -/
theorem Derives.passes : ∀ {tokens : List Placed} {d n : Datum}, Derives tokens d → n ∈ d.nodes → ∀ stack,
    Receptive stack → Passes (.reading stack) tokens (complete d stack) n
  | _, _, _, h@.symbol, hn, _, hs | _, _, _, h@.string, hn, _, hs | _, _, _, h@.number, hn, _, hs => by
    simp only [nodes, List.mem_singleton] at hn
    subst hn
    exact .whole h hs
  | _, _, _, @Derives.list line line' _ parts metadata h hm, hn, stack, hs => by
    rw [nodes, List.mem_cons, List.mem_append] at hn
    rcases hn with rfl | hn
    · exact .whole (.list h hm) hs
    · -- a value that stayed in the metadata was written in one of the maps
      have hbody := h.passes (hn.imp_left hm.mem_nodesEntries) line [] [] stack
      rw [List.append_nil, (Merges.nil.mergeEntries (Part.entries parts)).eq hm] at hbody
      exact .cons (step_of_begin hs rfl) (hbody.before (.single (step_rightParen line' line _ _ stack)))
  | _, _, _, @Derives.array line line' _ items h, hn, stack, hs => by
    rw [nodes, List.mem_cons] at hn
    rcases hn with rfl | hn
    · exact .whole (.array h) hs
    · have hbody := h.passes hn line [] stack
      rw [List.append_nil] at hbody
      exact .cons (step_of_begin hs rfl) (hbody.before (.single (step_rightBracket line' line _ stack)))
  | _, _, _, .map h, hn, stack, hs => by
    rw [nodes, List.mem_cons] at hn
    rcases hn with rfl | hn
    · exact .whole (.map h) hs
    · exact h.passes hn _ stack (step_of_begin hs rfl)

theorem DerivesItems.passes : ∀ {tokens : List Placed} {items : List Datum} {n : Datum}, DerivesItems tokens items →
    n ∈ nodesAll items → ∀ line before stack, Passes (.reading (.array line before :: stack)) tokens
      (.reading (.array line (items.reverse ++ before) :: stack)) n
  | _, _, _, .nil, hn, _, _, _ => by
    rw [nodesAll] at hn
    cases hn
  | _, _, _, .snoc h hd, hn, line, before, stack => by
    rw [List.reverse_append, List.reverse_singleton, List.singleton_append]
    -- the node was made before the last datum, which the reader then goes on to take, or in the last datum
    rcases mem_nodesAll_snoc.1 hn with hn | hn
    · exact (h.passes hn line before stack).before (hd.goes (.array line _ :: stack) trivial)
    · exact .after (h.goes line before stack) (hd.passes hn (.array line _ :: stack) trivial)

theorem DerivesParts.passes : ∀ {tokens : List Placed} {parts : List Part} {n : Datum}, DerivesParts tokens parts →
    n ∈ nodesEntries (Part.entries parts) ∨ n ∈ nodesAll (Part.items parts) → ∀ line metadata before stack,
      Passes (.reading (.list line metadata before :: stack)) tokens (.reading
        (.list line (mergeEntries metadata (Part.entries parts)) ((Part.items parts).reverse ++ before) :: stack)) n
  | _, _, _, .nil, hn, _, _, _, _ => by simp [Part.entries, Part.items, nodesEntries, nodesAll] at hn
  | _, _, _, .item h hd, hn, line, metadata, before, stack => by
    rw [Part.items_snoc_item, Part.entries_snoc_item, mem_nodesAll_snoc, ← or_assoc] at hn
    rw [Part.items_snoc_item, Part.entries_snoc_item, List.reverse_append, List.reverse_singleton,
      List.singleton_append]
    rcases hn with hn | hn
    · exact (h.passes hn line metadata before stack).before (hd.goes (.list line _ _ :: stack) trivial)
    · exact .after (h.goes line metadata before stack) (hd.passes hn (.list line _ _ :: stack) trivial)
  | _, _, _, .metadata h hm, hn, line, metadata, before, stack => by
    rw [Part.items_snoc_metadata, Part.entries_snoc_metadata, mem_nodesEntries_append, or_right_comm] at hn
    rw [Part.items_snoc_metadata, Part.entries_snoc_metadata, mergeEntries_append]
    rcases hn with hn | hn
    · exact (h.passes hn line metadata before stack).before (.cons rfl (hm.goes _ (.caret line _ _ :: stack) rfl))
    · exact .after (h.goes line metadata before stack) (.cons rfl (hm.passes hn _ (.caret line _ _ :: stack) rfl))

theorem DerivesMap.passes : ∀ {line : Nat} {tokens : List Placed} {entries : List (String × Datum)} {n : Datum},
    DerivesMap line tokens entries → n ∈ nodesEntries entries → ∀ state stack,
      step line .leftBrace state = .ok (.reading (.key line [] :: stack)) →
        Passes state tokens (complete (.map line entries) stack) n
  | _, _, _, _, .empty, hn, _, _, _ => by
    rw [nodesEntries] at hn
    cases hn
  | line, _, _, _, @DerivesMap.entries _ line' _ _ h, hn, _, stack, ho =>
    .cons ho ((h.passes hn line stack).before (.single (step_rightBrace_entry line' line _ stack)))
  | line, _, _, _, @DerivesMap.trailing _ _ line' _ _ h, hn, _, stack, ho =>
    .cons ho ((h.passes hn line stack).before (.cons rfl (.single (step_rightBrace_key line' line _ stack))))

theorem DerivesEntries.passes : ∀ {tokens : List Placed} {entries : List (String × Datum)} {n : Datum},
    DerivesEntries tokens entries → n ∈ nodesEntries entries → ∀ line stack,
      Passes (.reading (.key line [] :: stack)) tokens (.reading (.comma line entries.reverse :: stack)) n
  | _, _, _, .one hd, hn, line, stack =>
    .cons rfl (.cons rfl (hd.passes (mem_nodesEntries_singleton.1 hn) (.value line [] _ :: stack) trivial))
  | _, _, _, .more h hd, hn, line, stack => by
    rw [List.reverse_append, List.reverse_singleton, List.singleton_append]
    rw [mem_nodesEntries_append, mem_nodesEntries_singleton] at hn
    rcases hn with hn | hn
    · refine (h.passes hn line stack).before (.cons rfl (.cons rfl (.cons rfl ?_)))
      exact hd.goes (.value line _ _ :: stack) trivial
    · refine .after (h.goes line stack) (.cons rfl (.cons rfl (.cons rfl ?_)))
      exact hd.passes hn (.value line _ _ :: stack) trivial

end

/-! ### Every list of a text -/

/-- Tokens have one tree at most. -/
theorem Derives.unique {tokens : List Placed} {d e : Datum} (hd : Derives tokens d) (he : Derives tokens e) : d = e :=
  Except.ok.inj ((run_eq_ok_iff_derives.2 hd).symm.trans (run_eq_ok_iff_derives.2 he))

/-- However the tokens of a list are parted, the list is what the parts come to. -/
theorem Derives.comprises {line close : Nat} {inner : List Placed} {n : Datum} {parts : List Part}
    (h : Derives (⟨line, .leftParen⟩ :: inner ++ [⟨close, .rightParen⟩]) n) (hp : DerivesParts inner parts) :
    Comprises n parts := by
  have hm := Merges.nil.mergeEntries (Part.entries parts)
  rw [h.unique (.list hp hm)]
  exact hm.comprises line

theorem receptive_relined {f : Nat → Nat} {stack : List Frame} (h : Receptive stack) :
    Receptive (stack.map (Frame.relined f)) := by
  cases stack with
  | nil => trivial
  | cons frame _ => cases frame <;> exact h

theorem Makes.relined {f : Nat → Nat} {state last : State} {front own behind : List Placed} {n : Datum}
    (h : Makes state front own behind n last) :
    Makes (state.relined f) (front.map (Placed.relined f)) (own.map (Placed.relined f))
      (behind.map (Placed.relined f)) (n.relined f) (last.relined f) := by
  obtain ⟨stack, hs, hfront, hown, hbehind⟩ := h
  refine ⟨stack.map (Frame.relined f), receptive_relined hs, hfront.relined, ?_, ?_⟩
  · rw [complete_relined]
    exact hown.relined
  · rw [complete_relined]
    exact hbehind.relined

/-- The tokens between the parentheses of a list are those of some parts. -/
theorem Derives.exists_parts {line close : Nat} {inner : List Placed} {n : Datum}
    (h : Derives (⟨line, .leftParen⟩ :: inner ++ [⟨close, .rightParen⟩]) n) : ∃ parts, DerivesParts inner parts := by
  generalize hown : Placed.mk line .leftParen :: inner ++ [⟨close, .rightParen⟩] = own at h
  cases h with
  | @list _ _ _ parts _ hp _ =>
    simp only [List.cons_append, List.cons.injEq, List.append_singleton_inj] at hown
    obtain ⟨-, rfl, -⟩ := hown
    exact ⟨parts, hp⟩
  | map h => cases h <;> simp at hown
  | _ => simp at hown

/-- The list `n` of the datum `d` stands at the offset of `m`. The tokens have offsets, for which `f` gives the lines.
Of those from the parenthesis at this offset to another one the reader makes `n` on its way to `d`. The tokens between
the two are those of the parts of a list, and `n` is what the parts come to. -/
def ListAt (f : Nat → Nat) (tokens : List Placed) (d n m : Datum) : Prop :=
  ∃ front inner close behind,
    tokens = front ++ (⟨m.line, .leftParen⟩ :: inner ++ [⟨close, .rightParen⟩]) ++ behind ∧
    Makes (.reading []) (front.map (Placed.relined f))
      (⟨f m.line, .leftParen⟩ :: inner.map (Placed.relined f) ++ [⟨f close, .rightParen⟩])
      (behind.map (Placed.relined f)) n (.done d) ∧
    (∃ parts, DerivesParts (inner.map (Placed.relined f)) parts) ∧
    ∀ parts, DerivesParts (inner.map (Placed.relined f)) parts → Comprises n parts

theorem Derives.listAt {f : Nat → Nat} {tokens : List Placed} {o : Datum} (h : Derives tokens o) {line : Nat}
    {metadata : List (String × Datum)} {items : List Datum} (hm : .list line metadata items ∈ o.nodes) :
    ListAt f tokens (o.relined f) (.relined f (.list line metadata items)) (.list line metadata items) := by
  obtain ⟨front, own, behind, htokens, hown, hmakes⟩ := h.passes hm [] trivial
  have hderives := hown.relined (f := f)
  have hmakes := hmakes.relined (f := f)
  cases hown with
  | @list _ close inner parts _ hp _ =>
    rw [List.map_append, List.map_cons, List.map_singleton] at hderives hmakes
    exact ⟨front, inner, close, behind, htokens, hmakes, hderives.exists_parts, fun _ => hderives.comprises⟩

/-- Of two values for a key the later one stays. The text of a datum is cut into tokens with offsets, and these are
derived from the grammar with a datum `o` that has an offset of its own for each node. Every list of the datum, at any
depth and also where it is written several times, stands at its offset: the reader makes it of the tokens between the
parentheses there, and it is what the parts between them come to, however many maps behind carets there are among them,
wherever they stand and whichever keys they share. -/
theorem later_metadata_wins {text : List Char} {d : Datum} (h : parse text = .ok d) :
    ∃ tokens o, Token.Tokenized [] text tokens ∧
      (Token.scan 1 text).tokens = tokens.map (Placed.relined (Token.lineAt text)) ∧ Derives tokens o ∧
      d = o.relined (Token.lineAt text) ∧ (o.nodes.map line).Nodup ∧
      List.Forall₂ (fun n m => ∀ line metadata items, n = .list line metadata items →
        ListAt (Token.lineAt text) tokens d n m) d.nodes o.nodes := by
  obtain ⟨tokens, o, htokens, hscan, hderives, rfl⟩ := exists_offsets h
  have hnodup := hderives.opened.nodup_lines htokens.nodup_offsets
  refine ⟨tokens, o, htokens, hscan, hderives, rfl, hnodup, ?_⟩
  rw [nodes_relined, List.forall₂_map_left_iff, List.forall₂_same]
  intro m hm _ _ _ hn
  cases m with
  | list => exact hderives.listAt hm
  | _ => rw [relined] at hn; cases hn

/-- Keys that come twice in one map and in several maps, before, between and behind the items of three lists. Two of the
lists are written alike on one line. -/
def overlaid : List Char :=
  "(^\x7ba: 1, b: 2, a: 3\x7d (g ^\x7bc: 4\x7d x ^\x7bd: 5, c: 6,\x7d) (g ^\x7bc: 4\x7d x ^\x7bd: 5, c: 6,\x7d)
    ^\x7bb: 9\x7d)".toList

/-- The list that is written twice. -/
def overlaidInner : Datum :=
  .list 1 [("c", .number 1 "6"), ("d", .number 1 "5")] [.symbol 1 "g", .symbol 1 "x"]

set_option maxRecDepth 4000 in
theorem overlaidInner_comprises : ∃ d tokens o, parse overlaid = .ok d ∧ d.items = [overlaidInner, overlaidInner] ∧
    Token.Tokenized [] overlaid tokens ∧
    (Token.scan 1 overlaid).tokens = tokens.map (Placed.relined (Token.lineAt overlaid)) ∧ Derives tokens o ∧
    d = o.relined (Token.lineAt overlaid) ∧ (o.nodes.map line).Nodup ∧
    List.Forall₂ (fun n m => ∀ line metadata items, n = .list line metadata items →
      ListAt (Token.lineAt overlaid) tokens d n m) d.nodes o.nodes := by
  have hparse : parse overlaid =
      .ok (.list 1 [("a", .number 1 "3"), ("b", .number 2 "9")] [overlaidInner, overlaidInner]) := by
    unfold overlaidInner
    apply of_literal (P := (parse · = _))
    cbv
  obtain ⟨tokens, o, hstands⟩ := later_metadata_wins hparse
  exact ⟨_, tokens, o, hparse, rfl, hstands⟩

end Arvore.Datum
