import Mathlib
import Arvore.Proofs.Distinct
import Arvore.Proofs.Reading.Ending
import Arvore.Proofs.Reading.Printed

/-!
# The grammar of data

Data are written after the grammar

    datum ::= symbol | string | number | '(' (datum | '^' map)* ')' | '[' datum* ']' | map
    map   ::= '{' [ symbol ':' datum (',' symbol ':' datum)* [','] ] '}'

where the metadata of a list are merged from its maps behind carets. A derivation belongs to a sequence of tokens and
has a datum as its tree (`Derives`). The reader accepts a text exactly if the characters before the first NUL are cut
into tokens without an error and the tokens have a derivation, and it answers with the tree
(`parse_eq_ok_iff_derives`).
-/

namespace Arvore.Datum

open Token (Placed)

/-! ### Derivations -/

/-- What stands between the parentheses of a list: an item, or a map of metadata behind a caret. -/
inductive Part where
  | item (d : Datum)
  | metadata (entries : List (String × Datum))

/-- The items among the parts of a list. -/
def Part.items (parts : List Part) : List Datum :=
  parts.filterMap fun
    | item d => some d
    | metadata _ => none

/-- The entries of all maps among the parts of a list, in the order of the text. -/
def Part.entries (parts : List Part) : List (String × Datum) :=
  parts.flatMap fun
    | item _ => []
    | metadata entries => entries

/-- One entry for each key, in the order in which the keys come first, with the value that comes last. -/
structure Merges (entries merged : List (String × Datum)) : Prop where
  keys : merged.map Prod.fst = (entries.map Prod.fst).eraseDups
  value : ∀ key, merged.lookup key = entries.reverse.lookup key

mutual

/-- The tokens are those of a datum. -/
inductive Derives : List Placed → Datum → Prop
  | symbol {line : Nat} {text : String} : Derives [⟨line, .symbol text⟩] (.symbol line text)
  | string {line : Nat} {text : String} : Derives [⟨line, .string text⟩] (.string line text)
  | number {line : Nat} {text : String} : Derives [⟨line, .number text⟩] (.number line text)
  | list {line line' : Nat} {tokens : List Placed} {parts : List Part} {metadata : List (String × Datum)}
      (h : DerivesParts tokens parts) (hm : Merges (Part.entries parts) metadata) :
      Derives (⟨line, .leftParen⟩ :: tokens ++ [⟨line', .rightParen⟩]) (.list line metadata (Part.items parts))
  | array {line line' : Nat} {tokens : List Placed} {items : List Datum} (h : DerivesItems tokens items) :
      Derives (⟨line, .leftBracket⟩ :: tokens ++ [⟨line', .rightBracket⟩]) (.array line items)
  | map {line : Nat} {tokens : List Placed} {entries : List (String × Datum)} (h : DerivesMap line tokens entries) :
      Derives tokens (.map line entries)

/-- The tokens are those of some data. -/
inductive DerivesItems : List Placed → List Datum → Prop
  | nil : DerivesItems [] []
  | snoc {tokens more : List Placed} {items : List Datum} {d : Datum} (h : DerivesItems tokens items)
      (hd : Derives more d) : DerivesItems (tokens ++ more) (items ++ [d])

/-- The tokens are those of the parts of a list. -/
inductive DerivesParts : List Placed → List Part → Prop
  | nil : DerivesParts [] []
  | item {tokens more : List Placed} {parts : List Part} {d : Datum} (h : DerivesParts tokens parts)
      (hd : Derives more d) : DerivesParts (tokens ++ more) (parts ++ [Part.item d])
  | metadata {line line' : Nat} {tokens more : List Placed} {parts : List Part} {entries : List (String × Datum)}
      (h : DerivesParts tokens parts) (hm : DerivesMap line' more entries) :
      DerivesParts (tokens ++ ⟨line, .caret⟩ :: more) (parts ++ [Part.metadata entries])

/-- The tokens are those of a map that starts on the given line. A comma may stand behind the last entry. -/
inductive DerivesMap : Nat → List Placed → List (String × Datum) → Prop
  | empty {line line' : Nat} : DerivesMap line [⟨line, .leftBrace⟩, ⟨line', .rightBrace⟩] []
  | entries {line line' : Nat} {tokens : List Placed} {entries : List (String × Datum)}
      (h : DerivesEntries tokens entries) :
      DerivesMap line (⟨line, .leftBrace⟩ :: tokens ++ [⟨line', .rightBrace⟩]) entries
  | trailing {line comma line' : Nat} {tokens : List Placed} {entries : List (String × Datum)}
      (h : DerivesEntries tokens entries) :
      DerivesMap line (⟨line, .leftBrace⟩ :: tokens ++ [⟨comma, .comma⟩, ⟨line', .rightBrace⟩]) entries

/-- The tokens are those of one entry or more, with commas between them. -/
inductive DerivesEntries : List Placed → List (String × Datum) → Prop
  | one {line colon : Nat} {key : String} {tokens : List Placed} {d : Datum} (hd : Derives tokens d) :
      DerivesEntries (⟨line, .symbol key⟩ :: ⟨colon, .colon⟩ :: tokens) [(key, d)]
  | more {comma line colon : Nat} {key : String} {tokens more : List Placed} {entries : List (String × Datum)}
      {d : Datum} (h : DerivesEntries tokens entries) (hd : Derives more d) :
      DerivesEntries (tokens ++ ⟨comma, .comma⟩ :: ⟨line, .symbol key⟩ :: ⟨colon, .colon⟩ :: more)
        (entries ++ [(key, d)])

end

/-! ### Merging -/

theorem lookup_setEntry (key : String) (value : Datum) (es : List (String × Datum)) (k : String) :
    (setEntry key value es).lookup k = if k = key then some value else es.lookup k := by
  induction es with
  | nil =>
    by_cases h : k = key
    · simp [setEntry, h]
    · simp [setEntry, List.lookup_cons, h, beq_false_of_ne h]
  | cons e rest ih =>
    obtain ⟨name, old⟩ := e
    rw [setEntry]
    split
    · subst name
      by_cases h : k = key
      · simp [h]
      · simp [h, List.lookup_cons, beq_false_of_ne h]
    · rename_i hn
      by_cases h : k = name
      · simp [h, hn]
      · simp [List.lookup_cons, beq_false_of_ne h, ih]

theorem Merges.setEntry {es merged : List (String × Datum)} (h : Merges es merged) (key : String) (value : Datum) :
    Merges (es ++ [(key, value)]) (setEntry key value merged) := by
  have hmem : key ∈ merged.map Prod.fst ↔ key ∈ es.map Prod.fst := by rw [h.keys, List.mem_eraseDups]
  refine ⟨?_, fun k => ?_⟩
  · rw [List.map_append, List.map_cons, List.map_nil]
    by_cases hk : key ∈ es.map Prod.fst
    · rw [map_fst_setEntry_of_mem (hmem.2 hk), h.keys, eraseDups_snoc_of_mem hk]
    · rw [setEntry_of_not_mem (mt hmem.1 hk), List.map_append, h.keys, eraseDups_snoc_of_not_mem hk]
      rfl
  · rw [lookup_setEntry, h.value, List.reverse_append, List.reverse_singleton, List.singleton_append,
      List.lookup_cons]
    by_cases hk : k = key
    · simp [hk]
    · simp [hk, beq_false_of_ne hk]

/-- Merging one map into what was merged before. -/
theorem Merges.mergeEntries {es merged : List (String × Datum)} (h : Merges es merged)
    (new : List (String × Datum)) : Merges (es ++ new) (mergeEntries merged new) := by
  induction new generalizing es merged with
  | nil => simpa [Datum.mergeEntries] using h
  | cons e rest ih =>
    rw [List.append_cons]
    exact ih (h.setEntry e.1 e.2)

theorem Merges.nil : Merges [] [] := ⟨rfl, fun _ => rfl⟩

/-- Entries with different keys are told apart by what is found under their keys. -/
theorem eq_of_lookup {as bs : List (String × Datum)} (hk : as.map Prod.fst = bs.map Prod.fst)
    (hn : (as.map Prod.fst).Nodup) (h : ∀ key, as.lookup key = bs.lookup key) : as = bs := by
  induction as generalizing bs with
  | nil => simpa using hk
  | cons a as ih =>
    obtain ⟨key, value⟩ := a
    cases bs with
    | nil => simp at hk
    | cons b bs =>
      obtain ⟨key', value'⟩ := b
      simp only [List.map_cons, List.cons.injEq] at hk
      obtain ⟨rfl, hrest⟩ := hk
      rw [List.map_cons, List.nodup_cons] at hn
      have hvalue : value = value' := by simpa using h key
      have hnone : ∀ es : List (String × Datum), key ∉ es.map Prod.fst → es.lookup key = none := by
        intro es hes
        rw [List.lookup_eq_none_iff]
        intro e he
        simpa using fun heq : key = e.1 => hes (heq ▸ List.mem_map_of_mem he)
      have hlookup : ∀ k, as.lookup k = bs.lookup k := by
        intro k
        by_cases hkey : k = key
        · rw [hkey, hnone as hn.1, hnone bs (hrest ▸ hn.1)]
        · simpa [List.lookup_cons, beq_false_of_ne hkey] using h k
      rw [hvalue, ih hrest hn.2 hlookup]

/-- There is one way to merge. -/
theorem Merges.eq {es as bs : List (String × Datum)} (ha : Merges es as) (hb : Merges es bs) : as = bs :=
  eq_of_lookup (ha.keys.trans hb.keys.symm) (ha.keys ▸ nodup_eraseDups _) fun key =>
    (ha.value key).trans (hb.value key).symm

/-! ### Runs of the reader -/

/-- The reader takes the tokens and goes from one state to another. -/
inductive Goes : State → List Placed → State → Prop
  | nil {state : State} : Goes state [] state
  | cons {state next last : State} {t : Placed} {tokens : List Placed} (h : step t.line t.token state = .ok next)
      (hr : Goes next tokens last) : Goes state (t :: tokens) last

namespace Goes

variable {s s' s'' : State} {a b : List Placed}

theorem append (h : Goes s a s') (h' : Goes s' b s'') : Goes s (a ++ b) s'' := by
  induction h with
  | nil => exact h'
  | cons hs _ ih => exact .cons hs (ih h')

theorem single {t : Placed} (h : step t.line t.token s = .ok s') : Goes s [t] s' := .cons h .nil

end Goes

theorem run_eq_ok_iff {state : State} {tokens : List Placed} {d : Datum} :
    run state tokens = .ok d ↔ Goes state tokens (.done d) := by
  constructor
  · intro h
    induction tokens generalizing state with
    | nil =>
      rw [run, mapError_eq_ok_iff] at h
      unfold finish at h
      split at h
      · cases h
        exact .nil
      all_goals cases h
    | cons t rest ih =>
      rw [run] at h
      split at h
      · rename_i next hn
        exact .cons hn (ih h)
      · cases h
  · intro h
    generalize hs : State.done d = last at h
    induction h with
    | nil =>
      subst hs
      rfl
    | cons hstep _ ih =>
      rw [run, hstep]
      exact ih hs

/-! ### What is derived is read -/

theorem mergeEntries_append (old es fs : List (String × Datum)) :
    mergeEntries old (es ++ fs) = mergeEntries (mergeEntries old es) fs := List.foldl_append

section Closing

variable (line start : Nat) (entries : List (String × Datum)) (items : List Datum) (stack : List Frame)

theorem step_rightParen : step line .rightParen (.reading (.list start entries items.reverse :: stack)) =
    .ok (complete (.list start entries items) stack) := by rw [step, List.reverse_reverse]

theorem step_rightBracket : step line .rightBracket (.reading (.array start items.reverse :: stack)) =
    .ok (complete (.array start items) stack) := by rw [step, List.reverse_reverse]

theorem step_rightBrace_entry : step line .rightBrace (.reading (.comma start entries.reverse :: stack)) =
    .ok (complete (.map start entries) stack) := by rw [step, List.reverse_reverse]

theorem step_rightBrace_key : step line .rightBrace (.reading (.key start entries.reverse :: stack)) =
    .ok (complete (.map start entries) stack) := by rw [step, List.reverse_reverse]

end Closing

theorem Part.items_snoc_item (parts : List Part) (d : Datum) : items (parts ++ [Part.item d]) = items parts ++ [d] :=
  List.filterMap_append

theorem Part.items_snoc_metadata (parts : List Part) (es : List (String × Datum)) :
    items (parts ++ [Part.metadata es]) = items parts := by simp [items]

theorem Part.entries_snoc_item (parts : List Part) (d : Datum) : entries (parts ++ [Part.item d]) = entries parts := by
  simp [entries]

theorem Part.entries_snoc_metadata (parts : List Part) (es : List (String × Datum)) :
    entries (parts ++ [Part.metadata es]) = entries parts ++ es := by simp [entries]

mutual

/-- Where a datum may stand, the reader takes the tokens of a derivation and completes its tree. -/
theorem Derives.goes : ∀ {tokens : List Placed} {d : Datum}, Derives tokens d → ∀ stack, Receptive stack →
    Goes (.reading stack) tokens (complete d stack)
  | _, _, .symbol, _, hs | _, _, .string, _, hs | _, _, .number, _, hs => .single (step_of_begin hs rfl)
  | _, _, @Derives.list line line' _ parts metadata h hm, stack, hs => by
    have hbody := h.goes line [] [] stack
    rw [List.append_nil, (Merges.nil.mergeEntries (Part.entries parts)).eq hm] at hbody
    exact .cons (step_of_begin hs rfl) (hbody.append (.single (step_rightParen line' line _ _ stack)))
  | _, _, @Derives.array line line' _ items h, stack, hs => by
    have hbody := h.goes line [] stack
    rw [List.append_nil] at hbody
    exact .cons (step_of_begin hs rfl) (hbody.append (.single (step_rightBracket line' line _ stack)))
  | _, _, .map h, stack, hs => h.goes _ stack (step_of_begin hs rfl)

theorem DerivesItems.goes : ∀ {tokens : List Placed} {items : List Datum}, DerivesItems tokens items →
    ∀ line before stack, Goes (.reading (.array line before :: stack)) tokens
      (.reading (.array line (items.reverse ++ before) :: stack))
  | _, _, .nil, _, _, _ => .nil
  | _, _, .snoc h hd, line, before, stack => by
    rw [List.reverse_append, List.reverse_singleton, List.singleton_append]
    exact (h.goes line before stack).append (hd.goes (.array line _ :: stack) trivial)

theorem DerivesParts.goes : ∀ {tokens : List Placed} {parts : List Part}, DerivesParts tokens parts →
    ∀ line metadata before stack, Goes (.reading (.list line metadata before :: stack)) tokens (.reading
      (.list line (mergeEntries metadata (Part.entries parts)) ((Part.items parts).reverse ++ before) :: stack))
  | _, _, .nil, _, _, _, _ => .nil
  | _, _, .item h hd, line, metadata, before, stack => by
    rw [Part.items_snoc_item, Part.entries_snoc_item, List.reverse_append, List.reverse_singleton,
      List.singleton_append]
    exact (h.goes line metadata before stack).append (hd.goes (.list line _ _ :: stack) trivial)
  | _, _, .metadata h hm, line, metadata, before, stack => by
    rw [Part.items_snoc_metadata, Part.entries_snoc_metadata, mergeEntries_append]
    exact (h.goes line metadata before stack).append (.cons rfl (hm.goes _ (.caret line _ _ :: stack) rfl))

/-- A map is completed wherever its first brace opens one. -/
theorem DerivesMap.goes : ∀ {line : Nat} {tokens : List Placed} {entries : List (String × Datum)},
    DerivesMap line tokens entries → ∀ state stack,
      step line .leftBrace state = .ok (.reading (.key line [] :: stack)) →
        Goes state tokens (complete (.map line entries) stack)
  | _, _, _, .empty, _, _, ho => .cons ho (.single rfl)
  | line, _, _, @DerivesMap.entries _ line' _ _ h, _, stack, ho =>
    .cons ho ((h.goes line stack).append (.single (step_rightBrace_entry line' line _ stack)))
  | line, _, _, @DerivesMap.trailing _ _ line' _ _ h, _, stack, ho =>
    .cons ho ((h.goes line stack).append (.cons rfl (.single (step_rightBrace_key line' line _ stack))))

theorem DerivesEntries.goes : ∀ {tokens : List Placed} {entries : List (String × Datum)},
    DerivesEntries tokens entries → ∀ line stack, Goes (.reading (.key line [] :: stack)) tokens
      (.reading (.comma line entries.reverse :: stack))
  | _, _, .one hd, line, stack => .cons rfl (.cons rfl (hd.goes (.value line [] _ :: stack) trivial))
  | _, _, .more h hd, line, stack => by
    rw [List.reverse_append, List.reverse_singleton, List.singleton_append]
    refine (h.goes line stack).append (.cons rfl (.cons rfl (.cons rfl ?_)))
    exact hd.goes (.value line _ _ :: stack) trivial

end

/-! ### What is read was derived -/

/-- The maps among the open structures. -/
def Frame.IsMap : Frame → Prop
  | .key .. | .colon .. | .value .. | .comma .. => True
  | _ => False

/-- Where a structure may be opened: a map behind a caret, and all of them where a datum may stand. -/
def Frame.Fits (frame : Frame) (stack : List Frame) : Prop :=
  Receptive stack ∨ frame.IsMap ∧ ∃ line metadata items rest, stack = .caret line metadata items :: rest

/-- The tokens that an open structure has taken, the structure open inside it left out. -/
inductive Frame.Took : Frame → List Placed → Prop
  | list {line : Nat} {tokens : List Placed} {parts : List Part} {metadata : List (String × Datum)}
      (h : DerivesParts tokens parts) (hm : Merges (Part.entries parts) metadata) :
      Took (.list line metadata (Part.items parts).reverse) (⟨line, .leftParen⟩ :: tokens)
  | caret {line l : Nat} {metadata : List (String × Datum)} {items : List Datum} {tokens : List Placed}
      (h : Took (.list line metadata items) tokens) : Took (.caret line metadata items) (tokens ++ [⟨l, .caret⟩])
  | array {line : Nat} {tokens : List Placed} {items : List Datum} (h : DerivesItems tokens items) :
      Took (.array line items.reverse) (⟨line, .leftBracket⟩ :: tokens)
  | brace {line : Nat} : Took (.key line []) [⟨line, .leftBrace⟩]
  | comma {line l : Nat} {entries : List (String × Datum)} {tokens : List Placed}
      (h : Took (.comma line entries) tokens) : Took (.key line entries) (tokens ++ [⟨l, .comma⟩])
  | key {line l : Nat} {entries : List (String × Datum)} {name : String} {tokens : List Placed}
      (h : Took (.key line entries) tokens) : Took (.colon line entries name) (tokens ++ [⟨l, .symbol name⟩])
  | colon {line l : Nat} {entries : List (String × Datum)} {name : String} {tokens : List Placed}
      (h : Took (.colon line entries name) tokens) : Took (.value line entries name) (tokens ++ [⟨l, .colon⟩])
  | entries {line : Nat} {entries : List (String × Datum)} {tokens : List Placed} (h : DerivesEntries tokens entries) :
      Took (.comma line entries.reverse) (⟨line, .leftBrace⟩ :: tokens)

/-- The tokens that all open structures have taken, from the outermost to the innermost. -/
inductive StackTook : List Frame → List Placed → Prop
  | nil : StackTook [] []
  | cons {frame : Frame} {stack : List Frame} {before tokens : List Placed} (hs : StackTook stack before)
      (hp : frame.Fits stack) (hf : frame.Took tokens) : StackTook (frame :: stack) (before ++ tokens)

/-- The tokens that the reader has taken. -/
def State.Took : State → List Placed → Prop
  | .reading stack, tokens => StackTook stack tokens
  | .done d, tokens => Derives tokens d

section Took

variable {line : Nat} {entries : List (String × Datum)} {items : List Datum} {stack : List Frame}
  {before tokens more : List Placed} {d : Datum}

theorem Frame.Took.item {metadata : List (String × Datum)} (h : Frame.Took (.list line metadata items) tokens)
    (hd : Derives more d) : Frame.Took (.list line metadata (d :: items)) (tokens ++ more) := by
  cases h with
  | @list _ _ parts _ h hm =>
    have hitems : d :: (Part.items parts).reverse = (Part.items (parts ++ [Part.item d])).reverse := by
      rw [Part.items_snoc_item, List.reverse_append, List.reverse_singleton, List.singleton_append]
    rw [hitems]
    exact .list (.item h hd) (by rwa [Part.entries_snoc_item])

theorem Frame.Took.metadata {metadata : List (String × Datum)} {line' : Nat}
    (h : Frame.Took (.caret line metadata items) tokens) (hm : DerivesMap line' more entries) :
    Frame.Took (.list line (mergeEntries metadata entries) items) (tokens ++ more) := by
  cases h with
  | caret h =>
    cases h with
    | @list _ _ parts _ h hmerge =>
      rw [← Part.items_snoc_metadata parts entries, List.append_assoc, List.singleton_append]
      exact .list (.metadata h hm) (by rw [Part.entries_snoc_metadata]; exact hmerge.mergeEntries entries)

theorem Frame.Took.element (h : Frame.Took (.array line items) tokens) (hd : Derives more d) :
    Frame.Took (.array line (d :: items)) (tokens ++ more) := by
  cases h with
  | @array _ _ items h =>
    have hitems : d :: items.reverse = (items ++ [d]).reverse := by simp
    rw [hitems]
    exact .array (.snoc h hd)

theorem Frame.Took.value {name : String} (h : Frame.Took (.value line entries name) tokens) (hd : Derives more d) :
    Frame.Took (.comma line ((name, d) :: entries)) (tokens ++ more) := by
  cases h with
  | colon h =>
    cases h with
    | key h =>
      cases h with
      | brace => exact .entries (.one hd)
      | comma h =>
        cases h with
        | @entries _ entries _ h =>
          have hentries : (name, d) :: entries.reverse = (entries ++ [(name, d)]).reverse := by simp
          rw [hentries]
          simpa using Frame.Took.entries (.more h hd)

theorem Frame.Took.map_of_key {l : Nat} (h : Frame.Took (.key line entries) tokens) :
    DerivesMap line (tokens ++ [⟨l, .rightBrace⟩]) entries.reverse := by
  cases h with
  | brace => exact .empty
  | comma h =>
    cases h with
    | entries h =>
      rw [List.reverse_reverse, List.append_assoc]
      exact .trailing h

theorem Frame.Took.map_of_comma {l : Nat} (h : Frame.Took (.comma line entries) tokens) :
    DerivesMap line (tokens ++ [⟨l, .rightBrace⟩]) entries.reverse := by
  cases h with
  | entries h =>
    rw [List.reverse_reverse]
    exact .entries h

/-- A datum that is complete belongs to the structure around it. -/
theorem complete_took (hs : StackTook stack before) (hr : Receptive stack) (hd : Derives more d) :
    (complete d stack).Took (before ++ more) := by
  cases hs with
  | nil => exact hd
  | @cons frame stack before tokens hs hp hf =>
    rw [List.append_assoc]
    cases frame with
    | list => exact .cons hs (.inl (hp.resolve_right (·.1))) (hf.item hd)
    | array => exact .cons hs (.inl (hp.resolve_right (·.1))) (hf.element hd)
    | value => exact .cons hs hp (hf.value hd)
    | caret | key | colon | comma => exact hr.elim

/-- A map that is complete belongs to the structure around it, or to the metadata of a list. -/
theorem complete_map_took (hs : StackTook stack before) {frame : Frame} (hp : frame.Fits stack)
    (hm : DerivesMap line more entries) : (complete (.map line entries) stack).Took (before ++ more) := by
  rcases hp with hr | ⟨-, l, metadata, items, rest, rfl⟩
  · exact complete_took hs hr (.map hm)
  · cases hs with
    | cons hs hp hf =>
      rw [List.append_assoc]
      exact .cons hs (.inl (hp.resolve_right (·.1))) (hf.metadata hm)

theorem begin_took {token : Token} {next : State} (hs : StackTook stack before) (hr : Receptive stack)
    (h : begin line stack token = .ok next) : next.Took (before ++ [⟨line, token⟩]) := by
  cases token with
  | symbol text =>
    cases h
    exact complete_took hs hr .symbol
  | string text =>
    cases h
    exact complete_took hs hr .string
  | number text =>
    cases h
    exact complete_took hs hr .number
  | leftParen =>
    cases h
    exact .cons hs (.inl hr) (.list .nil .nil)
  | leftBracket =>
    cases h
    exact .cons hs (.inl hr) (.array .nil)
  | leftBrace =>
    cases h
    exact .cons hs (.inl hr) .brace
  | _ => cases h

/-- One token more has been taken. -/
theorem step_took {token : Token} {state next : State} (hs : state.Took before)
    (h : step line token state = .ok next) : next.Took (before ++ [⟨line, token⟩]) := by
  cases moves_of_step h with
  | begins h hr => exact begin_took hs hr h
  | listEnd =>
    cases hs with
    | cons hs hp hf =>
      cases hf with
      | list hparts hm =>
        rw [List.append_assoc, List.reverse_reverse]
        exact complete_took hs (hp.resolve_right (·.1)) (.list hparts hm)
  | arrayEnd =>
    cases hs with
    | cons hs hp hf =>
      cases hf with
      | array hitems =>
        rw [List.append_assoc, List.reverse_reverse]
        exact complete_took hs (hp.resolve_right (·.1)) (.array hitems)
  | caret =>
    cases hs with
    | cons hs hp hf =>
      rw [List.append_assoc]
      exact .cons hs (.inl (hp.resolve_right (·.1))) (.caret hf)
  | metadata => exact .cons hs (.inr ⟨trivial, _, _, _, _, rfl⟩) .brace
  | key =>
    cases hs with
    | cons hs hp hf =>
      rw [List.append_assoc]
      exact .cons hs hp (.key hf)
  | colon =>
    cases hs with
    | cons hs hp hf =>
      rw [List.append_assoc]
      exact .cons hs hp (.colon hf)
  | comma =>
    cases hs with
    | cons hs hp hf =>
      rw [List.append_assoc]
      exact .cons hs hp (.comma hf)
  | emptyEnd =>
    cases hs with
    | cons hs hp hf =>
      rw [List.append_assoc]
      exact complete_map_took hs hp hf.map_of_key
  | mapEnd =>
    cases hs with
    | cons hs hp hf =>
      rw [List.append_assoc]
      exact complete_map_took hs hp hf.map_of_comma

theorem Goes.took {state last : State} (h : Goes state tokens last) (hs : state.Took before) :
    last.Took (before ++ tokens) := by
  induction h generalizing before with
  | nil => rwa [List.append_nil]
  | cons hstep _ ih =>
    rw [List.append_cons]
    exact ih (step_took hs hstep)

end Took

/-- Reading from the start takes exactly the tokens that have a derivation. -/
theorem run_eq_ok_iff_derives {tokens : List Placed} {d : Datum} :
    run (.reading []) tokens = .ok d ↔ Derives tokens d := by
  rw [run_eq_ok_iff]
  constructor
  · intro h
    exact h.took .nil
  · intro h
    exact h.goes [] trivial

/-- The reader accepts exactly the grammar: it reads a datum from a text if the characters before the first NUL are cut
into tokens without an error, and the datum is the tree of a derivation of these tokens. -/
theorem parse_eq_ok_iff_derives {text : List Char} {d : Datum} : parse text = .ok d ↔
    ∃ tokens line, Token.scan 1 (Token.cut text) = ⟨tokens, line, none⟩ ∧ Derives tokens d := by
  rw [parse_eq_ok_iff, Yields, run_eq_ok_iff_derives, Token.scan_cut]
  constructor
  · rintro ⟨hd, he⟩
    refine ⟨_, (Token.scan 1 text).line, ?_, hd⟩
    rw [← he]
  · rintro ⟨tokens, line, hs, hd⟩
    rw [hs]
    exact ⟨hd, rfl⟩

end Arvore.Datum
