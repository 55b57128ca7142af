import Mathlib
import Arvore.Datum.Reader
import Arvore.Proofs.Reading.Token
import Arvore.Proofs.Sequence
import Arvore.Tree.Render

/-!
# Reading a text in parts

What one token can do to the reader is written down once (`Moves`). A text that stands before a delimiter leads the
reader from one state to another (`Takes`), and texts that do so can be put together. The text of a datum leads from
every place where a datum may stand to the state with this datum complete (`Reads`): so do symbols, strings and numbers,
and from their parts the forms and the bracketed sequences that programs are written with.
-/

namespace Arvore.Datum

/-! ### One token -/

/-- The places where a datum may stand: outermost, in a list, in an array or behind the colon of a key. -/
def Receptive : List Frame → Prop
  | [] | .list .. :: _ | .array .. :: _ | .value .. :: _ => True
  | _ => False

/-- What one token can do. -/
inductive Moves (line : Nat) : Token → State → State → Prop
  | begins {token : Token} {stack : List Frame} {next : State} (h : begin line stack token = .ok next)
      (hs : Receptive stack) : Moves line token (.reading stack) next
  | listEnd {start : Nat} {metadata : List (String × Datum)} {items : List Datum} {stack : List Frame} :
      Moves line .rightParen (.reading (.list start metadata items :: stack))
        (complete (.list start metadata items.reverse) stack)
  | caret {start : Nat} {metadata : List (String × Datum)} {items : List Datum} {stack : List Frame} :
      Moves line .caret (.reading (.list start metadata items :: stack))
        (.reading (.caret start metadata items :: stack))
  | metadata {start : Nat} {metadata : List (String × Datum)} {items : List Datum} {stack : List Frame} :
      Moves line .leftBrace (.reading (.caret start metadata items :: stack))
        (.reading (.key line [] :: .caret start metadata items :: stack))
  | arrayEnd {start : Nat} {items : List Datum} {stack : List Frame} :
      Moves line .rightBracket (.reading (.array start items :: stack)) (complete (.array start items.reverse) stack)
  | key {start : Nat} {entries : List (String × Datum)} {text : String} {stack : List Frame} :
      Moves line (.symbol text) (.reading (.key start entries :: stack)) (.reading (.colon start entries text :: stack))
  | emptyEnd {start : Nat} {entries : List (String × Datum)} {stack : List Frame} :
      Moves line .rightBrace (.reading (.key start entries :: stack)) (complete (.map start entries.reverse) stack)
  | colon {start : Nat} {entries : List (String × Datum)} {key : String} {stack : List Frame} :
      Moves line .colon (.reading (.colon start entries key :: stack)) (.reading (.value start entries key :: stack))
  | comma {start : Nat} {entries : List (String × Datum)} {stack : List Frame} :
      Moves line .comma (.reading (.comma start entries :: stack)) (.reading (.key start entries :: stack))
  | mapEnd {start : Nat} {entries : List (String × Datum)} {stack : List Frame} :
      Moves line .rightBrace (.reading (.comma start entries :: stack)) (complete (.map start entries.reverse) stack)

theorem moves_of_step {line : Nat} {token : Token} {state next : State} (h : step line token state = .ok next) :
    Moves line token state next := by
  unfold step at h
  split at h
  · cases h
  · exact .begins h trivial
  · split at h
    · cases h
      exact .listEnd
    · cases h
      exact .caret
    · exact .begins h trivial
  · split at h
    · cases h
      exact .metadata
    · cases h
  · split at h
    · cases h
      exact .arrayEnd
    · exact .begins h trivial
  · split at h
    · cases h
      exact .key
    · cases h
      exact .emptyEnd
    · cases h
  · split at h
    · cases h
      exact .colon
    · cases h
  · exact .begins h trivial
  · split at h
    · cases h
      exact .comma
    · cases h
      exact .mapEnd
    · cases h

/-- What every token preserves holds of the datum in the end. -/
theorem run_invariant {P : Token → Prop} {I : State → Prop}
    (hstep : ∀ {line t state next}, P t → I state → step line t state = .ok next → I next) {state : State}
    {tokens : List Token.Placed} {d : Datum} (ht : ∀ t ∈ tokens, P t.token) (hs : I state)
    (h : run state tokens = .ok d) : I (.done d) := by
  induction tokens generalizing state with
  | nil =>
    rw [run, mapError_eq_ok_iff] at h
    unfold finish at h
    split at h
    · cases h
      exact hs
    all_goals cases h
  | cons t rest ih =>
    rw [List.forall_mem_cons] at ht
    rw [run] at h
    split at h
    · rename_i next hn
      exact ih ht.2 (hstep ht.1 hs hn) h
    · cases h

/-- The reader takes a text, without an error, up to its end and ends with a datum. -/
def Yields (state : State) (line : Nat) (text : List Char) (d : Datum) : Prop :=
  run state (Token.scan line text).tokens = .ok d ∧ (Token.scan line text).error = none

theorem parse_eq_ok_iff {text : List Char} {d : Datum} : parse text = .ok d ↔ Yields (.reading []) 1 text d := by
  rw [parse, ofScan, Yields]
  generalize Token.scan 1 text = s
  constructor
  · intro h
    split at h
    · rename_i hr
      cases he : s.error with
      | none =>
        simp only [lexicalError, he, Except.ok.injEq] at h
        exact ⟨h ▸ hr, rfl⟩
      | some error => simp [lexicalError, he] at h
    · split at h
      · cases h
      · split at h <;> cases h
  · rintro ⟨hr, he⟩
    simp [hr, lexicalError, he]

attribute [local simp] step

/-! ### Texts that lead from one state to another -/

/-- The reader takes the characters from one line and state to another, wherever a delimiter follows. -/
def Takes (line : Nat) (state : State) (text : List Char) (line' : Nat) (state' : State) : Prop :=
  ∀ rest, Token.Delimits rest → ∀ d, Yields state' line' rest d → Yields state line (text ++ rest) d

namespace Takes

variable {line line' line'' : Nat} {state state' state'' : State} {text : List Char}

theorem nil : Takes line state [] line state := fun _ _ _ h => h

theorem append {more : List Char} (h : Takes line state text line' state') (hd : Token.Delimits more)
    (hm : Takes line' state' more line'' state'') : Takes line state (text ++ more) line'' state'' := by
  intro rest hr d hy
  rw [List.append_assoc]
  refine h _ ?_ d (hm rest hr d hy)
  cases more with
  | nil => exact hr
  | cons => exact hd

/-- A token is scanned off a text. -/
private theorem yields_token {c : Char} {rest rest' : List Char} {t : Token} {ends : Nat} {d : Datum}
    (hnul : c ≠ Token.nul) (hblank : Text.isBlank c = false) (hcomment : c ≠ ';')
    (hnext : Token.next c rest = .token t ends rest') (hs : step line t state = .ok state')
    (hy : Yields state' (line + ends) rest' d) : Yields state line (c :: rest) d := by
  rw [Yields, Token.scan_token hnul hblank hcomment hnext]
  refine ⟨?_, hy.2⟩
  rw [run, hs]
  exact hy.1

/-- One token, which a delimiter has to follow. -/
theorem token {t : Token} {ends : Nat} (ht : t.Spells ends text) (hs : step line t state = .ok state') :
    Takes line state text (line + ends) state' := by
  intro rest hr d hy
  obtain ⟨hnul, hblank, hcomment, hnext⟩ := ht
  exact yields_token hnul hblank hcomment (hnext rest hr) hs hy

/-- One mark, which anything may follow. -/
theorem mark {c : Char} {t : Token} (hc : Token.punctuation? c = some t) (hs : step line t state = .ok state')
    (h : Takes line state' text line' state'') : Takes line state (c :: text) line' state'' := by
  intro rest hr d hy
  have hplain : c ≠ Token.nul ∧ Text.isBlank c = false ∧ c ≠ ';' := by
    unfold Token.punctuation? at hc
    split at hc
    all_goals first | decide +kernel | cases hc
  have hnext : Token.next c (text ++ rest) = .token t 0 (text ++ rest) := by simp [Token.next, hc]
  exact yields_token hplain.1 hplain.2.1 hplain.2.2 hnext hs (h rest hr d hy)

/-- Spaces and line ends between two data. -/
theorem blank {c : Char} (hc : c = ' ' ∨ c = '\n') (h : Takes (line + Token.lineEnd c) state text line' state') :
    Takes line state (c :: text) line' state' := by
  intro rest hr d hy
  have hplain : c ≠ Token.nul ∧ Text.isBlank c = true := by rcases hc with rfl | rfl <;> decide +kernel
  rw [Yields, List.cons_append, Token.scan, if_neg hplain.1, if_pos hplain.2]
  exact h rest hr d hy

end Takes

/-! ### Texts of data -/

/-- No token that starts a datum closes a structure. -/
theorem step_of_begin {line : Nat} {stack : List Frame} {t : Token} {next : State} (hs : Receptive stack)
    (h : begin line stack t = .ok next) : step line t (.reading stack) = .ok next := by
  have hp : t ≠ .rightParen := by rintro rfl; cases h
  have hc : t ≠ .caret := by rintro rfl; cases h
  have hb : t ≠ .rightBracket := by rintro rfl; cases h
  unfold Receptive at hs
  split at hs
  · exact h
  · rw [step] <;> assumption
  · rw [step] <;> assumption
  · exact h
  · exact hs.elim

/-- Where a datum may stand, the text leads to the state in which a datum with the given property is complete. -/
def Reads (text : String) (P : Datum → Prop) : Prop :=
  ∀ line stack, Receptive stack →
    ∃ d line', P d ∧ Takes line (.reading stack) text.toList line' (complete d stack)

theorem Reads.mono {text : String} {P Q : Datum → Prop} (h : Reads text P) (hq : ∀ d, P d → Q d) : Reads text Q := by
  intro line stack hs
  obtain ⟨d, line', hd, ht⟩ := h line stack hs
  exact ⟨d, line', hq d hd, ht⟩

/-- A text of a datum is a text with one datum. -/
theorem Reads.parse {text : String} {P : Datum → Prop} (h : Reads text P) :
    ∃ d, parse text.toList = .ok d ∧ P d := by
  obtain ⟨d, line', hd, ht⟩ := h 1 [] trivial
  have hy := ht [] (by simp [Token.Delimits]) d ⟨by rw [Token.scan]; rfl, by rw [Token.scan]⟩
  rw [List.append_nil] at hy
  exact ⟨d, parse_eq_ok_iff.2 hy, hd⟩

/-- A token that is a datum by itself. -/
theorem reads_atom {text : String} {t : Token} {ends : Nat} {atom : Nat → Datum}
    (h : t.Spells ends text.toList) (hb : ∀ line stack, begin line stack t = .ok (complete (atom line) stack)) :
    Reads text fun d => ∃ l, d = atom l :=
  fun line stack hs => ⟨atom line, line + ends, ⟨line, rfl⟩, .token h (step_of_begin hs (hb line stack))⟩

theorem reads_symbol {text : String} (h : Token.IsSymbol text) : Reads text fun d => ∃ l, d = .symbol l text :=
  reads_atom h.spells fun _ _ => rfl

theorem reads_number {text : String} (h : Token.Spells (.number text) 0 text.toList) :
    Reads text fun d => ∃ l, d = .number l text :=
  reads_atom h fun _ _ => rfl

theorem reads_string {text : String} (h : Token.nul ∉ text.toList) :
    Reads (string 0 text).render fun d => ∃ l, d = .string l text := by
  have htext : (string 0 text).render.toList = stringText text.toList := by rw [render, chars, String.toList_ofList]
  have hspells := Token.spells_stringText h
  rw [← htext] at hspells
  exact reads_atom hspells fun _ _ => rfl

theorem forall₂_reads {α : Type} {xs : List α} {text : α → String} {P : α → Datum → Prop}
    (h : ∀ x ∈ xs, Reads (text x) (P x)) : List.Forall₂ Reads (xs.map text) (xs.map P) := by
  rw [List.forall₂_map_left_iff, List.forall₂_map_right_iff]
  exact List.forall₂_same.2 h

/-! ### Sequences -/

/-- A list or an array, between two items. -/
def Frame.IsSequence : Frame → Prop
  | .list .. | .array .. => True
  | _ => False

/-- A list or an array with further items. -/
def Frame.extend (ds : List Datum) : Frame → Frame
  | .list line metadata items => .list line metadata (ds.reverse ++ items)
  | .array line items => .array line (ds.reverse ++ items)
  | frame => frame

theorem Frame.IsSequence.receptive {frame : Frame} (h : frame.IsSequence) (stack : List Frame) :
    Receptive (frame :: stack) := by
  cases frame <;> trivial

theorem Frame.IsSequence.extend {frame : Frame} (h : frame.IsSequence) (ds : List Datum) :
    (frame.extend ds).IsSequence := by
  cases frame <;> trivial

theorem Frame.extend_nil {frame : Frame} : frame.extend [] = frame := by
  cases frame <;> rfl

theorem Frame.extend_extend {frame : Frame} (ds es : List Datum) :
    (frame.extend ds).extend es = frame.extend (ds ++ es) := by
  cases frame <;> simp [Frame.extend]

theorem complete_sequence {frame : Frame} (h : frame.IsSequence) (d : Datum) (stack : List Frame) :
    complete d (frame :: stack) = .reading (frame.extend [d] :: stack) := by
  cases frame <;> first | rfl | exact h.elim

/-- White space between two items. -/
structure IsGap (gap : List Char) : Prop where
  nonempty : gap ≠ []
  white : ∀ c ∈ gap, c = ' ' ∨ c = '\n'

/-- White space only moves the reader to another line. -/
theorem exists_takes_gap {gap : List Char} (h : ∀ c ∈ gap, c = ' ' ∨ c = '\n') (line : Nat) :
    ∃ line', ∀ {state text line'' state'}, Takes line' state text line'' state' →
      Takes line state (gap ++ text) line'' state' := by
  induction gap generalizing line with
  | nil => exact ⟨line, id⟩
  | cons c gap ih =>
    rw [List.forall_mem_cons] at h
    obtain ⟨line', hline⟩ := ih h.2 (line + Token.lineEnd c)
    exact ⟨line', fun ht => .blank h.1 (hline ht)⟩

/-- Items, each behind white space. -/
def spaced (gap : List Char) (texts : List String) : List Char := texts.flatMap fun text => gap ++ text.toList

theorem IsGap.delimits {gap : List Char} (h : IsGap gap) (texts : List String) : Token.Delimits (spaced gap texts) := by
  obtain ⟨c, gap, rfl⟩ := List.exists_cons_of_ne_nil h.nonempty
  intro d hd
  cases texts with
  | nil => cases hd
  | cons text texts =>
    simp only [spaced, List.flatMap_cons, List.cons_append, List.head?_cons, Option.mem_some_iff] at hd
    subst hd
    rcases h.white c (by simp) with rfl | rfl <;> rfl

/-- Items one after the other, each behind white space. -/
theorem takes_items {gap : List Char} (hg : IsGap gap) {texts : List String} {Ps : List (Datum → Prop)}
    (h : List.Forall₂ Reads texts Ps) (frame : Frame) (hf : frame.IsSequence) (stack : List Frame) (line : Nat) :
    ∃ ds line', List.Forall₂ (fun P d => P d) Ps ds ∧
      Takes line (.reading (frame :: stack)) (spaced gap texts) line' (.reading (frame.extend ds :: stack)) := by
  induction h generalizing frame line with
  | nil => exact ⟨[], line, .nil, Frame.extend_nil ▸ .nil⟩
  | @cons text P texts Ps hr _ ih =>
    obtain ⟨line₁, hgap⟩ := exists_takes_gap hg.white line
    obtain ⟨d, line₂, hd, ht⟩ := hr line₁ (frame :: stack) (hf.receptive stack)
    rw [complete_sequence hf] at ht
    obtain ⟨ds, line₃, hds, hts⟩ := ih _ (hf.extend [d]) line₂
    rw [Frame.extend_extend] at hts
    refine ⟨d :: ds, line₃, .cons hd hds, ?_⟩
    rw [spaced, List.flatMap_cons, List.append_assoc]
    exact hgap (ht.append (hg.delimits texts) hts)

theorem isGap_space : IsGap [' '] := ⟨by simp, by simp⟩

/-- Items with white space between neighbours. -/
theorem takes_sequence {gap : List Char} (hg : IsGap gap) {text : String} {P : Datum → Prop} {texts : List String}
    {Ps : List (Datum → Prop)} (hr : Reads text P) (h : List.Forall₂ Reads texts Ps) (frame : Frame)
    (hf : frame.IsSequence) (stack : List Frame) (line : Nat) :
    ∃ ds line', List.Forall₂ (fun P d => P d) (P :: Ps) ds ∧ Takes line (.reading (frame :: stack))
      (text.toList ++ spaced gap texts) line' (.reading (frame.extend ds :: stack)) := by
  obtain ⟨d, line₁, hd, ht⟩ := hr line (frame :: stack) (hf.receptive stack)
  rw [complete_sequence hf] at ht
  obtain ⟨ds, line₂, hds, hts⟩ := takes_items hg h _ (hf.extend [d]) stack line₁
  rw [Frame.extend_extend] at hts
  exact ⟨d :: ds, line₂, .cons hd hds, ht.append (hg.delimits texts) hts⟩

/-- What stands between two brackets makes the frame that the first one opens into the one that the second one
closes. -/
theorem reads_enclosed {text : String} {P : Datum → Prop} {left right : Char} {opening closing : Token}
    {body : List Char} (hleft : Token.punctuation? left = some opening)
    (hright : Token.punctuation? right = some closing) (hdelimiter : Token.isDelimiter right = true)
    (htext : text.toList = left :: (body ++ [right]))
    (h : ∀ line stack, ∃ frame frame' line' d, begin line stack opening = .ok (.reading (frame :: stack)) ∧
      Takes line (.reading (frame :: stack)) body line' (.reading (frame' :: stack)) ∧
      step line' closing (.reading (frame' :: stack)) = .ok (complete d stack) ∧ P d) : Reads text P := by
  intro line stack hs
  obtain ⟨frame, frame', line', d, hopen, hbody, hclose, hd⟩ := h line stack
  refine ⟨d, line', hd, ?_⟩
  rw [htext]
  exact .mark hleft (step_of_begin hs hopen) (hbody.append (Token.delimits_cons hdelimiter) (.mark hright hclose .nil))

theorem toList_intercalate_cons (text : String) (texts : List String) :
    (" ".intercalate (text :: texts)).toList = text.toList ++ spaced [' '] texts := by
  induction texts generalizing text with
  | nil => simp [spaced]
  | cons next texts ih =>
    rw [String.intercalate_cons_cons, String.toList_append, String.toList_append, ih]
    simp [spaced]

/-- An array is read from the texts of its items. -/
theorem reads_bracketed {texts : List String} {Ps : List (Datum → Prop)} (h : List.Forall₂ Reads texts Ps) :
    Reads (Tree.bracketed texts) fun d => ∃ l ds, d = .array l ds ∧ List.Forall₂ (fun P d => P d) Ps ds := by
  have htext : (Tree.bracketed texts).toList = '[' :: ((" ".intercalate texts).toList ++ [']']) := by
    simp [Tree.bracketed]
  refine reads_enclosed rfl rfl rfl htext fun line stack => ?_
  cases h with
  | nil => exact ⟨_, _, line, .array line [], rfl, .nil, rfl, line, [], rfl, .nil⟩
  | cons hr h =>
    have ht := takes_sequence isGap_space hr h (.array line []) trivial stack line
    rw [← toList_intercalate_cons] at ht
    obtain ⟨ds, line', hds, ht⟩ := ht
    exact ⟨_, _, line', .array line ds, rfl, ht, by simp [Frame.extend], line, ds, rfl, hds⟩

/-- The characters of a form. -/
theorem toList_form (text : String) (texts : List String) :
    (Tree.form (text :: texts)).toList = '(' :: (text.toList ++ spaced [' '] texts ++ [')']) := by
  rw [← toList_intercalate_cons]
  simp [Tree.form]

/-- A list without metadata is read from the texts of its items. -/
theorem reads_list {gap : List Char} (hg : IsGap gap) {whole text : String} {P : Datum → Prop} {texts : List String}
    {Ps : List (Datum → Prop)} (hwhole : whole.toList = '(' :: (text.toList ++ spaced gap texts ++ [')']))
    (hr : Reads text P) (h : List.Forall₂ Reads texts Ps) :
    Reads whole fun d => ∃ l ds, d = .list l [] ds ∧ List.Forall₂ (fun P d => P d) (P :: Ps) ds := by
  refine reads_enclosed rfl rfl rfl hwhole fun line stack => ?_
  obtain ⟨ds, line', hds, ht⟩ := takes_sequence hg hr h (.list line [] []) trivial stack line
  exact ⟨_, _, line', .list line [] ds, rfl, ht, by simp [Frame.extend], line, ds, rfl, hds⟩

theorem reads_form {text : String} {P : Datum → Prop} {texts : List String} {Ps : List (Datum → Prop)}
    (hr : Reads text P) (h : List.Forall₂ Reads texts Ps) : Reads (Tree.form (text :: texts))
      fun d => ∃ l ds, d = .list l [] ds ∧ List.Forall₂ (fun P d => P d) (P :: Ps) ds :=
  reads_list isGap_space (toList_form text texts) hr h

/-! ### Lists with a line -/

theorem takes_lineText {n : Nat} (line start : Nat) (items : List Datum) (stack : List Frame) :
    Takes line (.reading (.list start [] items :: stack)) (Tree.lineText n).toList line
      (.reading (.list start [("line", .number line (toString n))] items :: stack)) := by
  have hint : toString (n : Int) = toString n := rfl
  have htext : (Tree.lineText n).toList =
      '^' :: '\x7b' :: ("line".toList ++ ':' :: ' ' :: ((toString n).toList ++ ['\x7d'])) := by
    rw [Tree.lineText, hint]
    simp
  rw [htext]
  have hkey : Token.Spells (.symbol "line") 0 "line".toList := Token.IsSymbol.spells (by decide +kernel)
  have hnumber := Token.spells_natural n
  refine .mark rfl rfl (.mark rfl rfl ?_)
  refine .append (.token hkey rfl) (Token.delimits_cons rfl) ?_
  refine .mark rfl rfl (.blank (.inl rfl) ?_)
  refine .append (.token hnumber rfl) (Token.delimits_cons rfl) ?_
  exact .mark rfl rfl .nil

/-- A list with a line is read from the texts of its items before and behind the line. -/
theorem reads_lined {n : Nat} {text : String} {P : Datum → Prop} {before texts : List String}
    {Ps Qs : List (Datum → Prop)} (hr : Reads text P) (hb : List.Forall₂ Reads before Ps)
    (h : List.Forall₂ Reads texts Qs) : Reads (Tree.form (text :: (before ++ Tree.lineText n :: texts)))
      fun d => ∃ l m ds es, d = .list l [("line", .number m (toString n))] (ds ++ es) ∧
        List.Forall₂ (fun P d => P d) (P :: Ps) ds ∧ List.Forall₂ (fun P d => P d) Qs es := by
  have htext : (Tree.form (text :: (before ++ Tree.lineText n :: texts))).toList = '(' :: (text.toList ++
      spaced [' '] before ++ (' ' :: ((Tree.lineText n).toList ++ spaced [' '] texts)) ++ [')']) := by
    rw [toList_form]
    simp [spaced]
  refine reads_enclosed rfl rfl rfl htext fun line stack => ?_
  obtain ⟨ds, line₁, hds, ht⟩ := takes_sequence isGap_space hr hb (.list line [] []) trivial stack line
  have hline : Takes line₁ (.reading (.list line [] (ds.reverse ++ []) :: stack)) (Tree.lineText n).toList line₁ _ :=
    takes_lineText line₁ line _ stack
  obtain ⟨es, line₂, hes, hts⟩ := takes_items isGap_space h (.list line _ (ds.reverse ++ [])) trivial stack line₁
  have hall := ht.append (Token.delimits_cons rfl)
    (.blank (.inl rfl) (hline.append (isGap_space.delimits texts) hts))
  exact ⟨_, _, line₂, .list line _ (ds ++ es), rfl, hall, by simp [Frame.extend],
    line, line₁, ds, es, rfl, hds, hes⟩

end Arvore.Datum
