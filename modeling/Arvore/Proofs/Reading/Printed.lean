import Mathlib
import Arvore.Proofs.Reading.Datum

/-!
# Data are read back from their texts

A datum that was read from a text is legible: its words are read again wherever a delimiter follows, and no key of its
metadata comes twice. The text that is written for a legible datum is read as the same datum, on other lines
(`readsBack_of_legible`). So what was read once survives writing and reading again (`parse_render_of_parse`).
-/

namespace Arvore.Datum

/-! ### Data without lines -/

mutual

/-- The datum with its lines taken off. -/
def unplaced : Datum → Datum
  | symbol _ text => symbol 0 text
  | string _ text => string 0 text
  | number _ text => number 0 text
  | list _ metadata items => list 0 (unplacedEntries metadata) (unplacedAll items)
  | array _ items => array 0 (unplacedAll items)
  | map _ entries => map 0 (unplacedEntries entries)

/-- Several data with their lines taken off. -/
def unplacedAll : List Datum → List Datum
  | [] => []
  | d :: rest => unplaced d :: unplacedAll rest

/-- Entries with the lines of their values taken off. -/
def unplacedEntries : List (String × Datum) → List (String × Datum)
  | [] => []
  | (key, d) :: rest => (key, unplaced d) :: unplacedEntries rest

end

theorem unplacedAll_eq_map (ds : List Datum) : unplacedAll ds = ds.map unplaced := by
  induction ds with
  | nil => rw [unplacedAll, List.map_nil]
  | cons d rest ih => rw [unplacedAll, ih, List.map_cons]

theorem map_fst_unplacedEntries (es : List (String × Datum)) :
    (unplacedEntries es).map Prod.fst = es.map Prod.fst := by
  induction es with
  | nil => rw [unplacedEntries]
  | cons e rest ih => rw [unplacedEntries, List.map_cons, List.map_cons, ih]

mutual

/-- The text of a datum does not depend on its lines. -/
theorem chars_unplaced : ∀ d : Datum, d.unplaced.chars = d.chars
  | symbol .. | string .. | number .. => by simp only [unplaced, chars]
  | list _ metadata items => by
    have hempty : (unplacedEntries metadata).isEmpty = metadata.isEmpty := by
      cases metadata <;> simp [unplacedEntries]
    simp only [unplaced, chars, hempty, entryChars_unplacedEntries metadata, itemChars_unplacedAll items]
  | array _ items => by simp only [unplaced, chars, itemChars_unplacedAll items]
  | map _ entries => by simp only [unplaced, chars, entryChars_unplacedEntries entries]

theorem itemChars_unplacedAll : ∀ ds : List Datum, itemChars (unplacedAll ds) = itemChars ds
  | [] => by rw [unplacedAll]
  | d :: rest => by rw [unplacedAll, itemChars, itemChars, chars_unplaced d, itemChars_unplacedAll rest]

theorem entryChars_unplacedEntries : ∀ es : List (String × Datum), entryChars (unplacedEntries es) = entryChars es
  | [] => by rw [unplacedEntries]
  | (key, d) :: rest => by
    rw [unplacedEntries, entryChars, entryChars, chars_unplaced d, entryChars_unplacedEntries rest]

end

/-! ### Merging -/

theorem mem_setEntry {key : String} {value : Datum} {es : List (String × Datum)} {e : String × Datum}
    (h : e ∈ setEntry key value es) : e = (key, value) ∨ e ∈ es := by
  induction es with
  | nil => simpa [setEntry] using h
  | cons f rest ih =>
    rw [setEntry] at h
    split at h
    · rename_i hk
      rcases List.mem_cons.1 h with rfl | h
      · exact .inl (by rw [hk])
      · exact .inr (List.mem_cons_of_mem _ h)
    · rcases List.mem_cons.1 h with rfl | h
      · exact .inr List.mem_cons_self
      · exact (ih h).imp_right (List.mem_cons_of_mem _)

theorem setEntry_of_not_mem {key : String} {value : Datum} {es : List (String × Datum)}
    (h : key ∉ es.map Prod.fst) : setEntry key value es = es ++ [(key, value)] := by
  induction es with
  | nil => rfl
  | cons e rest ih =>
    rw [List.map_cons, List.mem_cons, not_or] at h
    rw [setEntry, if_neg (Ne.symm h.1), ih h.2, List.cons_append]

theorem map_fst_setEntry_of_mem {key : String} {value : Datum} {es : List (String × Datum)}
    (h : key ∈ es.map Prod.fst) : (setEntry key value es).map Prod.fst = es.map Prod.fst := by
  induction es with
  | nil => cases h
  | cons e rest ih =>
    rw [setEntry]
    split
    · rfl
    · rename_i hk
      rw [List.map_cons, List.mem_cons] at h
      rw [List.map_cons, ih (h.resolve_left (Ne.symm hk)), List.map_cons]

/-- Entries with keys that are all new go to the end. -/
theorem mergeEntries_eq_append {old new : List (String × Datum)} (h : (old.map Prod.fst ++ new.map Prod.fst).Nodup) :
    mergeEntries old new = old ++ new := by
  induction new generalizing old with
  | nil => exact (List.append_nil old).symm
  | cons e rest ih =>
    have hnew : e.1 ∉ old.map Prod.fst := fun hm => List.disjoint_of_nodup_append h hm List.mem_cons_self
    have hkeys : ((old ++ [e]).map Prod.fst ++ rest.map Prod.fst).Nodup := by simpa using h
    rw [mergeEntries, List.foldl_cons, setEntry_of_not_mem hnew, List.append_cons old e rest]
    exact ih hkeys

/-! ### Legible data -/

/-- Entries whose keys are read again wherever a delimiter follows. -/
def KeysLexed (es : List (String × Datum)) : Prop := ∀ e ∈ es, (Token.symbol e.1).Lexed

/-- Data whose words are read again wherever a delimiter follows, and whose metadata have no key twice. -/
inductive Legible : Datum → Prop
  | symbol {line text} (h : (Token.symbol text).Lexed) : Legible (.symbol line text)
  | string {line text} (h : (Token.string text).Lexed) : Legible (.string line text)
  | number {line text} (h : (Token.number text).Lexed) : Legible (.number line text)
  | list {line metadata items} (hn : (metadata.map Prod.fst).Nodup) (hk : KeysLexed metadata)
      (hm : ∀ e ∈ metadata, Legible e.2) (hi : ∀ d ∈ items, Legible d) : Legible (.list line metadata items)
  | array {line items} (hi : ∀ d ∈ items, Legible d) : Legible (.array line items)
  | map {line entries} (hk : KeysLexed entries) (he : ∀ e ∈ entries, Legible e.2) : Legible (.map line entries)

/-- Legible entries. -/
structure LegibleEntries (es : List (String × Datum)) : Prop where
  keys : KeysLexed es
  values : ∀ e ∈ es, Legible e.2

/-- Legible metadata. -/
structure LegibleMetadata (es : List (String × Datum)) : Prop extends LegibleEntries es where
  nodup : (es.map Prod.fst).Nodup

theorem LegibleEntries.nil : LegibleEntries [] := ⟨by simp [KeysLexed], by simp⟩

theorem LegibleEntries.cons {es : List (String × Datum)} {key : String} {d : Datum} (hk : (Token.symbol key).Lexed)
    (hd : d.Legible) (h : LegibleEntries es) : LegibleEntries ((key, d) :: es) :=
  ⟨List.forall_mem_cons.2 ⟨hk, h.keys⟩, List.forall_mem_cons.2 ⟨hd, h.values⟩⟩

theorem LegibleEntries.reverse {es : List (String × Datum)} (h : LegibleEntries es) : LegibleEntries es.reverse :=
  ⟨fun e he => h.keys e (List.mem_reverse.1 he), fun e he => h.values e (List.mem_reverse.1 he)⟩

theorem LegibleMetadata.setEntry {es : List (String × Datum)} (h : LegibleMetadata es) {key : String} {d : Datum}
    (hk : (Token.symbol key).Lexed) (hd : d.Legible) : LegibleMetadata (setEntry key d es) := by
  refine ⟨⟨fun e he => ?_, fun e he => ?_⟩, ?_⟩
  · rcases mem_setEntry he with rfl | he
    · exact hk
    · exact h.keys e he
  · rcases mem_setEntry he with rfl | he
    · exact hd
    · exact h.values e he
  · by_cases hm : key ∈ es.map Prod.fst
    · rw [map_fst_setEntry_of_mem hm]
      exact h.nodup
    · rw [setEntry_of_not_mem hm, List.map_append]
      exact h.nodup.append (List.nodup_singleton _) (by simpa using hm)

theorem LegibleMetadata.mergeEntries {old new : List (String × Datum)} (ho : LegibleMetadata old)
    (hn : LegibleEntries new) : LegibleMetadata (mergeEntries old new) := by
  induction new generalizing old with
  | nil => exact ho
  | cons e rest ih =>
    obtain ⟨hk, hv⟩ := hn
    rw [KeysLexed, List.forall_mem_cons] at hk
    rw [List.forall_mem_cons] at hv
    exact ih (ho.setEntry hk.1 hv.1) ⟨hk.2, hv.2⟩

/-! ### Reading keeps data legible -/

/-- A structure that is open, all of whose parts are legible. -/
def Frame.Legible : Frame → Prop
  | .list _ metadata items | .caret _ metadata items => LegibleMetadata metadata ∧ ∀ d ∈ items, d.Legible
  | .array _ items => ∀ d ∈ items, d.Legible
  | .key _ entries | .comma _ entries => LegibleEntries entries
  | .colon _ entries name | .value _ entries name => LegibleEntries entries ∧ (Token.symbol name).Lexed

/-- All that the reader has taken is legible. -/
def State.Legible : State → Prop
  | .reading stack => ∀ frame ∈ stack, frame.Legible
  | .done d => d.Legible

theorem complete_legible {d : Datum} {stack : List Frame} (hd : d.Legible) (hs : ∀ frame ∈ stack, frame.Legible) :
    (complete d stack).Legible := by
  cases stack with
  | nil => exact hd
  | cons frame rest =>
    rw [List.forall_mem_cons] at hs
    obtain ⟨hf, hrest⟩ := hs
    cases frame with
    | list line metadata items =>
      exact List.forall_mem_cons.2 ⟨⟨hf.1, List.forall_mem_cons.2 ⟨hd, hf.2⟩⟩, hrest⟩
    | caret line metadata items =>
      have hitem := List.forall_mem_cons.2 ⟨hd, hf.2⟩
      cases hd with
      | map hk he => exact List.forall_mem_cons.2 ⟨⟨hf.1.mergeEntries ⟨hk, he⟩, hf.2⟩, hrest⟩
      | _ => exact List.forall_mem_cons.2 ⟨⟨hf.1, hitem⟩, hrest⟩
    | array line items => exact List.forall_mem_cons.2 ⟨List.forall_mem_cons.2 ⟨hd, hf⟩, hrest⟩
    | value line entries key => exact List.forall_mem_cons.2 ⟨.cons hf.2 hd hf.1, hrest⟩
    | key | colon | comma => exact List.forall_mem_cons.2 ⟨hf, hrest⟩

theorem begin_legible {line : Nat} {stack : List Frame} {t : Token} {next : State} (ht : t.Lexed)
    (hs : ∀ frame ∈ stack, frame.Legible) (h : begin line stack t = .ok next) : next.Legible := by
  have hnone : LegibleMetadata [] := ⟨.nil, .nil⟩
  cases t with
  | symbol text =>
    cases h
    exact complete_legible (.symbol ht) hs
  | string text =>
    cases h
    exact complete_legible (.string ht) hs
  | number text =>
    cases h
    exact complete_legible (.number ht) hs
  | leftParen =>
    cases h
    exact List.forall_mem_cons.2 ⟨⟨hnone, by simp⟩, hs⟩
  | leftBracket =>
    cases h
    exact List.forall_mem_cons.2 ⟨by simp [Frame.Legible], hs⟩
  | leftBrace =>
    cases h
    exact List.forall_mem_cons.2 ⟨.nil, hs⟩
  | _ => cases h

theorem step_legible {line : Nat} {t : Token} {state next : State} (ht : t.Lexed) (hs : state.Legible)
    (h : step line t state = .ok next) : next.Legible := by
  cases moves_of_step h with
  | begins h => exact begin_legible ht hs h
  | listEnd =>
    obtain ⟨⟨hm, hi⟩, hs⟩ := List.forall_mem_cons.1 hs
    exact complete_legible (.list hm.nodup hm.keys hm.values fun d hd => hi d (List.mem_reverse.1 hd)) hs
  | arrayEnd =>
    obtain ⟨hi, hs⟩ := List.forall_mem_cons.1 hs
    exact complete_legible (.array fun d hd => hi d (List.mem_reverse.1 hd)) hs
  | emptyEnd | mapEnd =>
    obtain ⟨he, hs⟩ := List.forall_mem_cons.1 hs
    have he := LegibleEntries.reverse he
    exact complete_legible (.map he.keys he.values) hs
  | caret | comma | colon =>
    obtain ⟨hf, hs⟩ := List.forall_mem_cons.1 hs
    exact List.forall_mem_cons.2 ⟨hf, hs⟩
  | metadata => exact List.forall_mem_cons.2 ⟨.nil, hs⟩
  | key =>
    obtain ⟨he, hs⟩ := List.forall_mem_cons.1 hs
    exact List.forall_mem_cons.2 ⟨⟨he, ht⟩, hs⟩

/-- What was read from a text is legible. -/
theorem legible_of_parse {text : List Char} {d : Datum} (h : parse text = .ok d) : d.Legible :=
  run_invariant step_legible (Token.scan_lexed 1 text) (fun _ hf => absurd hf List.not_mem_nil)
    (parse_eq_ok_iff.1 h).1

/-! ### Reading what was written -/

/-- The text of a datum is read as the same datum, on other lines. -/
def ReadsBack (d : Datum) : Prop := Reads d.render fun d' => d'.unplaced = d.unplaced

theorem toList_render (d : Datum) : d.render.toList = d.chars := by rw [render, String.toList_ofList]

/-- Items behind a text, each behind a space. -/
theorem separated_itemChars (text : List Char) (ds : List Datum) :
    separated [' '] (text :: itemChars ds) = text ++ spaced [' '] (ds.map render) := by
  induction ds generalizing text with
  | nil => simp [itemChars, separated, spaced]
  | cons d rest ih =>
    rw [itemChars, separated, ih]
    · simp [spaced, toList_render]
    · simp

/-- One entry of a map. -/
theorem takes_entry {key : String} {d : Datum} (hk : (Token.symbol key).Lexed) (hd : d.ReadsBack) (line start : Nat)
    (entries : List (String × Datum)) (stack : List Frame) : ∃ d' line', d'.unplaced = d.unplaced ∧
      Takes line (.reading (.key start entries :: stack)) (key.toList ++ [':', ' '] ++ d.chars) line'
        (.reading (.comma start ((key, d') :: entries) :: stack)) := by
  obtain ⟨d', line', hd', ht⟩ := hd line (.value start entries key :: stack) trivial
  rw [toList_render] at ht
  refine ⟨d', line', hd', ?_⟩
  rw [List.append_assoc]
  refine .append (.token hk rfl) (Token.delimits_cons rfl) ?_
  exact .mark rfl rfl (.blank (.inl rfl) ht)

/-- Entries of a map with commas between them. -/
theorem takes_entries {e : String × Datum} {es : List (String × Datum)} (hk : KeysLexed (e :: es))
    (hd : ∀ f ∈ e :: es, f.2.ReadsBack) (line start : Nat) (entries : List (String × Datum)) (stack : List Frame) :
    ∃ es' line', unplacedEntries es' = unplacedEntries (e :: es) ∧
      Takes line (.reading (.key start entries :: stack)) (separated [',', ' '] (entryChars (e :: es))) line'
        (.reading (.comma start (es'.reverse ++ entries) :: stack)) := by
  induction es generalizing e line entries with
  | nil =>
    have he : e ∈ [e] := List.mem_singleton_self e
    obtain ⟨d, line', hd', ht⟩ := takes_entry (hk e he) (hd e he) line start entries stack
    exact ⟨[(e.1, d)], line', by simp [unplacedEntries, hd'], ht⟩
  | cons f es ih =>
    rw [KeysLexed, List.forall_mem_cons] at hk
    rw [List.forall_mem_cons] at hd
    obtain ⟨d, line₁, hd', ht⟩ := takes_entry hk.1 hd.1 line start entries stack
    obtain ⟨es', line₂, hes, hts⟩ := ih hk.2 hd.2 line₁ ((e.1, d) :: entries)
    have htext : separated [',', ' '] (entryChars (e :: f :: es)) = e.1.toList ++ [':', ' '] ++ e.2.chars ++
        (',' :: ' ' :: separated [',', ' '] (entryChars (f :: es))) := by simp [entryChars, separated]
    have hrev : ((e.1, d) :: es').reverse ++ entries = es'.reverse ++ (e.1, d) :: entries := by simp
    refine ⟨(e.1, d) :: es', line₂, by rw [unplacedEntries, hd', hes, ← unplacedEntries], ?_⟩
    rw [htext, hrev]
    exact ht.append (Token.delimits_cons rfl) (.mark (t := .comma) rfl rfl (.blank (.inl rfl) hts))

/-- The entries of a map, and the brace behind them. -/
theorem takes_map {entries : List (String × Datum)} (hk : KeysLexed entries) (hd : ∀ e ∈ entries, e.2.ReadsBack)
    (line start : Nat) (stack : List Frame) : ∃ es line', unplacedEntries es = unplacedEntries entries ∧
      Takes line (.reading (.key start [] :: stack)) (separated [',', ' '] (entryChars entries) ++ ['\x7d']) line'
        (complete (.map start es) stack) := by
  cases entries with
  | nil => exact ⟨[], line, rfl, .mark (t := .rightBrace) rfl rfl .nil⟩
  | cons e rest =>
    obtain ⟨es, line', hes, ht⟩ := takes_entries hk hd line start [] stack
    refine ⟨es, line', hes, ht.append (Token.delimits_cons rfl) (.mark (t := .rightBrace) rfl ?_ .nil)⟩
    simp [step]

/-- Metadata at the start of a list. -/
theorem takes_metadata {entries : List (String × Datum)} (h : (entries.map Prod.fst).Nodup) (hk : KeysLexed entries)
    (hd : ∀ e ∈ entries, e.2.ReadsBack) (line start : Nat) (stack : List Frame) :
    ∃ es line', unplacedEntries es = unplacedEntries entries ∧ Takes line (.reading (.list start [] [] :: stack))
      (['^', '\x7b'] ++ separated [',', ' '] (entryChars entries) ++ ['\x7d']) line'
      (.reading (.list start es [] :: stack)) := by
  obtain ⟨es, line', hes, ht⟩ := takes_map hk hd line line (.caret start [] [] :: stack)
  have hkeys : es.map Prod.fst = entries.map Prod.fst := by
    rw [← map_fst_unplacedEntries, hes, map_fst_unplacedEntries]
  have hmerge : mergeEntries [] es = es := mergeEntries_eq_append (by simpa [hkeys] using h)
  rw [complete, hmerge] at ht
  refine ⟨es, line', hes, ?_⟩
  rw [List.append_assoc]
  exact .mark (t := .caret) rfl rfl (.mark (t := .leftBrace) rfl rfl ht)

theorem unplacedAll_eq_of_forall₂ {ds items : List Datum}
    (h : List.Forall₂ (fun P d => P d) (items.map fun d d' => d'.unplaced = d.unplaced) ds) :
    unplacedAll ds = unplacedAll items := by
  rw [List.forall₂_map_left_iff] at h
  rw [unplacedAll_eq_map, unplacedAll_eq_map]
  induction h with
  | nil => rfl
  | cons h _ ih => rw [List.map_cons, List.map_cons, h, ih]

/-- Items with spaces between them. -/
theorem takes_separated {items : List Datum} (h : ∀ d ∈ items, d.ReadsBack) (frame : Frame) (hf : frame.IsSequence)
    (stack : List Frame) (line : Nat) : ∃ ds line', unplacedAll ds = unplacedAll items ∧
      Takes line (.reading (frame :: stack)) (separated [' '] (itemChars items)) line'
        (.reading (frame.extend ds :: stack)) := by
  cases items with
  | nil => exact ⟨[], line, rfl, Frame.extend_nil ▸ .nil⟩
  | cons d rest =>
    rw [List.forall_mem_cons] at h
    obtain ⟨ds, line', hds, ht⟩ := takes_sequence isGap_space h.1 (forall₂_reads h.2) frame hf stack line
    have hsame : unplacedAll ds = unplacedAll (d :: rest) := unplacedAll_eq_of_forall₂ hds
    refine ⟨ds, line', hsame, ?_⟩
    rwa [itemChars, separated_itemChars, ← toList_render]

theorem readsBack_atom {d : Datum} {t : Token} {ends : Nat} {atom : Nat → Datum} (h : t.Spells ends d.chars)
    (hb : ∀ line stack, begin line stack t = .ok (complete (atom line) stack))
    (hu : ∀ line, (atom line).unplaced = d.unplaced) : d.ReadsBack := by
  rw [← toList_render] at h
  refine (reads_atom h hb).mono ?_
  rintro _ ⟨line, rfl⟩
  exact hu line

/-- A legible datum is read back from its text. -/
theorem readsBack_of_legible {d : Datum} (h : d.Legible) : d.ReadsBack := by
  induction h with
  | @symbol line text h =>
    exact readsBack_atom (t := .symbol text) (by rwa [chars]) (fun _ _ => rfl) fun _ => by simp only [unplaced]
  | @string line text h =>
    have hspells := Token.spells_stringText h
    exact readsBack_atom (by rwa [chars]) (fun _ _ => rfl) fun _ => by simp only [unplaced]
  | @number line text h =>
    exact readsBack_atom (t := .number text) (by rwa [chars]) (fun _ _ => rfl) fun _ => by simp only [unplaced]
  | @list line metadata items hn hk hm hi ihm ihi =>
    have htext : (Datum.list line metadata items).render.toList = '(' :: (_ ++ [')']) := toList_render _
    refine reads_enclosed rfl rfl rfl htext fun line stack => ?_
    cases metadata with
    | nil =>
      obtain ⟨ds, line', hds, ht⟩ := takes_separated ihi (.list line [] []) trivial stack line
      exact ⟨_, _, line', .list line [] ds, rfl, ht, by simp [Frame.extend, step], by simp only [unplaced, hds]⟩
    | cons e es =>
      obtain ⟨es', line₁, hes, hm⟩ := takes_metadata hn hk ihm line line stack
      obtain ⟨ds, line₂, hds, ht⟩ := takes_items isGap_space (forall₂_reads ihi) (.list line es' []) trivial stack line₁
      have hbody := hm.append (isGap_space.delimits _) ht
      rw [← separated_itemChars] at hbody
      exact ⟨_, _, line₂, .list line es' ds, rfl, hbody, by simp [Frame.extend, step],
        by simp only [unplaced, hes, unplacedAll_eq_of_forall₂ hds]⟩
  | @array line items hi ih =>
    have htext : (Datum.array line items).render.toList = '[' :: (separated [' '] (itemChars items) ++ [']']) := by
      rw [toList_render, chars, List.cons_append]
    refine reads_enclosed rfl rfl rfl htext fun line stack => ?_
    obtain ⟨ds, line', hds, ht⟩ := takes_separated ih (.array line []) trivial stack line
    exact ⟨_, _, line', .array line ds, rfl, ht, by simp [Frame.extend, step], by simp only [unplaced, hds]⟩
  | @map line entries hk he ih =>
    intro line stack hs
    obtain ⟨es, line', hes, ht⟩ := takes_map hk ih line line stack
    refine ⟨.map line es, line', by simp only [unplaced, hes], ?_⟩
    rw [toList_render, chars, List.cons_append]
    exact .mark (t := .leftBrace) rfl (step_of_begin hs rfl) ht

/-- Reading the text that is written for a datum which was read gives the datum back, on other lines, and the same text
is written for it. -/
theorem parse_render_of_parse {text : List Char} {d : Datum} (h : parse text = .ok d) :
    ∃ d', parse d.render.toList = .ok d' ∧ d'.unplaced = d.unplaced ∧ d'.render = d.render := by
  obtain ⟨d', hd', hsame⟩ := (readsBack_of_legible (legible_of_parse h)).parse
  refine ⟨d', hd', hsame, ?_⟩
  rw [render, render, ← chars_unplaced d', hsame, chars_unplaced]

/-- Metadata in two places of a list, of which the second replaces a value of the first, a map with one key twice, a
string with a quote, a backslash and a line end, and numbers whose exponents have no digits. -/
def tangled : List Char :=
  "(a ^\x7bk: 1e, j: [x \"q\\\"\\\\\n\"]\x7d 2E+ \x7bm: -3.5,m: \x7b\x7d\x7d ; comment
    ^\x7bk: _y\x7d ())".toList

theorem tangled_reads_back : ∃ d d', parse tangled = .ok d ∧
    d.render = "(^\x7bk: _y, j: [x \"q\\\"\\\\\n\"]\x7d a 2E+ \x7bm: -3.5, m: \x7b\x7d\x7d ())" ∧
    parse d.render.toList = .ok d' ∧ d'.unplaced = d.unplaced ∧ d'.render = d.render := by
  have hrender : (parse tangled).toOption.map render =
      some "(^\x7bk: _y, j: [x \"q\\\"\\\\\n\"]\x7d a 2E+ \x7bm: -3.5, m: \x7b\x7d\x7d ())" := by
    decide +kernel
  obtain ⟨d, hp, hrender⟩ := map_toOption_eq_some_iff.1 hrender
  obtain ⟨d', h⟩ := parse_render_of_parse hp
  exact ⟨d, d', hp, hrender, h⟩

end Arvore.Datum
