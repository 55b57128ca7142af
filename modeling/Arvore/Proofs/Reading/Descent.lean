import Mathlib
import Arvore.Proofs.Reading.Cursor

/-!
# Data on demand

A datum can be read while its tokens are read. The reader holds the current token and the one behind it, and its
functions call each other as the parts of the datum lie in each other: a datum that is opened is read by a loop over its
parts, and a turn of this loop reads one part. The calls are counted, and `none` says that a number of calls was not
enough.

A lexical error is answered by an end of the tokens, behind which the tokens of the rest of the source follow, so
what is left of the source does not bound the calls. What does is `Reader.left`, which is zero at such an end: no
loop goes on there. Three calls for each token that is left are enough (`Reader.enough`), and then the answer is
that of `Datum.parse`, which scans all tokens before it reads the first (`Reader.parse_eq`).
-/

namespace Arvore.Datum

open Token (Placed Lexeme Cursor Scan)

/-- The entries of a map. -/
def entries : Datum → List (String × Datum)
  | map _ entries => entries
  | _ => []

/-- The state of the reader: where its next token will be read, the current token and the one behind it. -/
structure Reader where
  lexer : Cursor
  current : Lexeme
  peek : Lexeme
  deriving DecidableEq

/-- A loop over the parts of an open structure, with the parts that it has read, the last one first. -/
inductive Loop where
  | list (line : Nat) (metadata : List (String × Datum)) (items : List Datum)
  | array (line : Nat) (items : List Datum)
  | map (line : Nat) (entries : List (String × Datum))

/-- The open structure of a loop, as it is kept where all tokens are read first. -/
def Loop.frame : Loop → Frame
  | list line metadata items => .list line metadata items
  | array line items => .array line items
  | map line entries => .key line entries

/-- A loop over entries makes a map. -/
def Loop.Makes : Loop → Datum → Prop
  | map .., d => ∃ line entries, d = .map line entries
  | _, _ => True

/-- A turn of a loop leaves it with a result, or the loop goes on. -/
inductive Turn where
  | leave (result : Except SyntaxError Datum)
  | again (loop : Loop)

/-- A part that was read goes into a loop, and an error leaves it. -/
def Turn.of (loop : Datum → Loop) : Except SyntaxError Datum → Turn
  | .ok d => again (loop d)
  | .error e => leave (.error e)

namespace Reader

variable (source : List UInt8)

/-- Goes on by one token. -/
def advance (p : Reader) : Option Reader := do
  let (next, lexer) ← Cursor.nextToken source (source.length + 2) p.lexer
  some ⟨lexer, p.peek, next⟩

/-- The current token is not what was wanted. -/
def unexpected (p : Reader) (expected : Expectation) : SyntaxError :=
  .grammar p.current.line expected p.current.token

/-- Behind a value stands a comma or the end of the map. -/
def behindValue (line : Nat) (entries : List (String × Datum)) (p : Reader) : Option (Turn × Reader) :=
  match p.current.token with
  | some .comma => do some (.again (.map line entries), ← p.advance source)
  | some .rightBrace => some (.again (.map line entries), p)
  | _ => some (.leave (.error (p.unexpected .entryEnd)), p)

mutual

/-- Reads a datum. -/
def datum : Nat → Reader → Option (Except SyntaxError Datum × Reader)
  | 0, _ => none
  | n + 1, p =>
    match p.current.token with
    | some (.symbol text) => do some (.ok (.symbol p.current.line text), ← p.advance source)
    | some (.string text) => do some (.ok (.string p.current.line text), ← p.advance source)
    | some (.number text) => do some (.ok (.number p.current.line text), ← p.advance source)
    | some .leftParen => do loop n (.list p.current.line [] []) (← p.advance source)
    | some .leftBracket => do loop n (.array p.current.line []) (← p.advance source)
    | some .leftBrace => do loop n (.map p.current.line []) (← p.advance source)
    | _ => some (.error (p.unexpected .datum), p)

/-- Repeats the turns of a loop. -/
def loop : Nat → Loop → Reader → Option (Except SyntaxError Datum × Reader)
  | 0, _, _ => none
  | n + 1, l, p => do
    let (t, p) ← turn n l p
    match t with
    | .leave result => some (result, p)
    | .again l => loop n l p

/-- One turn of a loop. -/
def turn : Nat → Loop → Reader → Option (Turn × Reader)
  | 0, _, _ => none
  | n + 1, .list line metadata items, p =>
    match p.current.token with
    | none => some (.leave (.error (p.unexpected .listEnd)), p)
    | some .rightParen => do some (.leave (.ok (.list line metadata items.reverse)), ← p.advance source)
    | some .caret => do
      let p ← p.advance source
      if p.current.token = some .leftBrace then do
        let (result, p') ← loop n (.map p.current.line []) (← p.advance source)
        some (.of (fun d => .list line (mergeEntries metadata d.entries) items) result, p')
      else some (.leave (.error (p.unexpected .metadataMap)), p)
    | some _ => do
      let (result, p) ← datum n p
      some (.of (fun d => .list line metadata (d :: items)) result, p)
  | n + 1, .array line items, p =>
    match p.current.token with
    | none => some (.leave (.error (p.unexpected .arrayEnd)), p)
    | some .rightBracket => do some (.leave (.ok (.array line items.reverse)), ← p.advance source)
    | some _ => do
      let (result, p) ← datum n p
      some (.of (fun d => .array line (d :: items)) result, p)
  | n + 1, .map line entries, p =>
    match p.current.token with
    | none => some (.leave (.error (p.unexpected .mapEnd)), p)
    | some .rightBrace => do some (.leave (.ok (.map line entries.reverse)), ← p.advance source)
    | some (.symbol key) => do
      let p ← p.advance source
      if p.current.token = some .colon then do
        let (result, p) ← datum n (← p.advance source)
        match result with
        | .error e => some (.leave (.error e), p)
        | .ok d => p.behindValue source line ((key, d) :: entries)
      else some (.leave (.error (p.unexpected .colon)), p)
    | some _ => some (.leave (.error (p.unexpected .key)), p)

end

/-- The reader before the first token, with nothing read. -/
def start : Reader := ⟨⟨0, 1, []⟩, ⟨0, none⟩, ⟨0, none⟩⟩

/-- The answer when a datum has been read: a lexical error that was met goes before all others, and nothing may stand
behind the datum. -/
def answer (p : Reader) (result : Except SyntaxError Datum) : Except SyntaxError Datum :=
  match p.lexer.errors with
  | (line, error) :: _ => .error (.lexical line error)
  | [] =>
    match result with
    | .error e => .error e
    | .ok d => if p.current.token = none then .ok d else .error (p.unexpected .endOfText)

/-- Reads the one datum that a source holds. -/
def parse (n : Nat) : Option (Except SyntaxError Datum) := do
  let p ← start.advance source
  let p ← p.advance source
  let (result, p) ← datum source n p
  some (p.answer result)

/-! ### Consuming tokens -/

/-- The reader stands not behind the end of the source. -/
def Within (p : Reader) : Prop := p.lexer.pos ≤ source.length

/-- The reader consumes so many tokens, none of which is an end of the tokens. -/
inductive Consumes : Nat → Reader → Reader → Prop
  | nil {p : Reader} : Consumes 0 p p
  | cons {k : Nat} {p q r : Reader} (ht : p.current.token ≠ none) (h : p.advance source = some q)
      (hr : Consumes k q r) : Consumes (k + 1) p r

/-- A bound for the tokens that the reader can still consume. Behind an end of the tokens it consumes none, whatever
stands there. -/
def left (p : Reader) : Nat :=
  match p.current.token, p.peek.token with
  | none, _ => 0
  | some _, none => 1
  | some _, some _ => 2 + (source.length - p.lexer.pos)

/-- What is left for the reader: the tokens that are scanned from its current one on, the line on which they end and the
error that ends them. The error has been met if at most one token is left. -/
inductive Sees : Reader → Scan → Prop
  | more {lexer : Cursor} {a b : Placed} {s : Scan} (herrors : lexer.errors = [])
      (hs : Token.scan lexer.line (lexer.ahead source) = s) :
      Sees ⟨lexer, ⟨a.line, some a.token⟩, ⟨b.line, some b.token⟩⟩ ⟨a :: b :: s.tokens, s.line, s.error⟩
  | last {lexer : Cursor} {a : Placed} {line : Nat} (herrors : lexer.errors = [])
      (hs : Token.scan lexer.line (lexer.ahead source) = ⟨[], line, none⟩) :
      Sees ⟨lexer, ⟨a.line, some a.token⟩, ⟨line, none⟩⟩ ⟨[a], line, none⟩
  | lastFailed {lexer : Cursor} {a : Placed} {line line' : Nat} {error : Token.Error}
      (herrors : lexer.errors.head? = some (line', error)) :
      Sees ⟨lexer, ⟨a.line, some a.token⟩, ⟨line, none⟩⟩ ⟨[a], line', some error⟩
  | finished {lexer : Cursor} {peek : Lexeme} {line : Nat} (herrors : lexer.errors = []) :
      Sees ⟨lexer, ⟨line, none⟩, peek⟩ ⟨[], line, none⟩
  | failed {lexer : Cursor} {peek : Lexeme} {line line' : Nat} {error : Token.Error}
      (herrors : lexer.errors.head? = some (line', error)) :
      Sees ⟨lexer, ⟨line, none⟩, peek⟩ ⟨[], line', some error⟩

variable {source} {p q : Reader} {k : Nat} {tokens : List Placed} {line : Nat} {error : Option Token.Error}

theorem left_le (p : Reader) : p.left source ≤ source.length + 2 := by
  unfold left
  split <;> omega

theorem Sees.tokens_of_none (h : Sees source p ⟨tokens, line, error⟩) (ht : p.current.token = none) : tokens = [] := by
  cases h with
  | more | last | lastFailed => cases ht
  | finished | failed => rfl

theorem Sees.tokens_of_some {t : Token} (h : Sees source p ⟨tokens, line, error⟩) (ht : p.current.token = some t) :
    ∃ rest, tokens = ⟨p.current.line, t⟩ :: rest := by
  cases h with
  | more | last | lastFailed =>
    cases ht
    exact ⟨_, rfl⟩
  | finished | failed => cases ht

/-- The errors that were met stay, and the first of them stays the first. -/
theorem errors_of_nextRead {c c' : Cursor} {s : Scan} {t : Lexeme} (h : Cursor.NextRead source c s (t, c'))
    {e : Nat × Token.Error} (he : c.errors.head? = some e) : c'.errors.head? = some e := by
  cases h with
  | token _ herrors | finished herrors => rw [herrors, he]
  | failed herrors => rw [herrors, List.head?_append, he]; rfl

/-- The token behind the current one has been read from where nothing has failed. -/
theorem sees_of_nextRead {c c' : Cursor} {s : Scan} {t : Lexeme} (h : Cursor.NextRead source c s (t, c'))
    (he : c.errors = []) (a : Placed) :
    Sees source ⟨c', ⟨a.line, some a.token⟩, t⟩ ⟨a :: s.tokens, s.line, s.error⟩ := by
  cases h with
  | @token _ line t _ _ herrors hs => exact .more (b := ⟨line, t⟩) (herrors.trans he) hs
  | finished herrors hs => exact .last (herrors.trans he) hs
  | failed herrors => exact .lastFailed (by rw [herrors, he]; rfl)

/-- Going on ends, and it takes a token from what is left. -/
theorem advance_eq (hp : p.Within source) : ∃ q, p.advance source = some q ∧ q.Within source ∧
    (p.current.token ≠ none → q.left source < p.left source) ∧
    ∀ a rest line error, Sees source p ⟨a :: rest, line, error⟩ → Sees source q ⟨rest, line, error⟩ := by
  have hrounds : (p.lexer.ahead source).length + 1 < source.length + 2 :=
    Nat.add_lt_add_of_le_of_lt p.lexer.length_ahead_le (by decide)
  obtain ⟨⟨t, lexer⟩, hr, hpos, hlength, hread⟩ := Cursor.nextToken_eq hp hrounds
  refine ⟨⟨lexer, p.peek, t⟩, ?_, hlength, ?_, ?_⟩
  · rw [advance, hr]
    rfl
  · intro hcurrent
    obtain ⟨current, hcurrent⟩ := Option.ne_none_iff_exists'.1 hcurrent
    simp only [left, hcurrent]
    cases hpeek : p.peek.token with
    | none => exact Nat.zero_lt_one
    | some _ =>
      -- the current token is consumed, and if one was read behind the other two then it took the cursor further
      cases hnext : t.token with
      | none =>
        dsimp only
        omega
      | some _ =>
        have hlt := hread.pos_lt (by rw [hnext]; exact Option.some_ne_none _)
        dsimp only at hlength hlt ⊢
        omega
  · intro a rest line error h
    cases h with
    | @more _ _ b _ herrors hs =>
      dsimp only at hread
      rw [hs] at hread
      exact sees_of_nextRead hread herrors b
    | last herrors hs =>
      dsimp only at hread
      rw [hs] at hread
      cases hread with
      | finished he => exact .finished (he.trans herrors)
    | lastFailed herrors => exact .failed (errors_of_nextRead hread herrors)

theorem Consumes.trans {m : Nat} {r : Reader} (h : Consumes source k p q) (h' : Consumes source m q r) :
    Consumes source (k + m) p r := by
  induction h with
  | nil => rwa [Nat.zero_add]
  | cons ht h _ ih =>
    rw [Nat.add_right_comm]
    exact .cons ht h (ih h')

theorem Consumes.single {t : Token} (ht : p.current.token = some t) (h : p.advance source = some q) :
    Consumes source 1 p q := .cons (by rw [ht]; exact Option.some_ne_none t) h .nil

/-- What is left when some tokens have been consumed. -/
theorem Consumes.left_le (h : Consumes source k p q) (hp : p.Within source) :
    q.Within source ∧ q.left source + k ≤ p.left source := by
  induction h with
  | nil => exact ⟨hp, Nat.le_refl _⟩
  | cons ht h _ ih =>
    obtain ⟨q, hq, hwithin, hlt, -⟩ := advance_eq hp
    rw [h] at hq
    cases hq
    have := ih hwithin
    have := hlt ht
    exact ⟨(ih hwithin).1, by omega⟩

theorem Consumes.sees (h : Consumes source k p q) (hp : p.Within source)
    (hs : Sees source p ⟨tokens, line, error⟩) : Sees source q ⟨tokens.drop k, line, error⟩ := by
  induction h generalizing tokens with
  | nil => exact hs
  | cons ht h _ ih =>
    obtain ⟨q, hq, hwithin, -, hsees⟩ := advance_eq hp
    rw [h] at hq
    cases hq
    obtain ⟨t, ht⟩ := Option.ne_none_iff_exists'.1 ht
    obtain ⟨rest, rfl⟩ := hs.tokens_of_some ht
    exact ih hwithin (hsees _ _ _ _ hs)

/-! ### Agreement with the reading of all tokens -/

/-- The answer of a call that ends in the state `p`, with the given tokens left, agrees with what reading all tokens
comes to: it is at the point where the datum is complete, or has the same complaint about the same token. -/
def Agrees (p : Reader) (tokens : List Placed) (stack : List Frame)
    (reading : Except (Expectation × List Placed) Datum) : Except SyntaxError Datum → Prop
  | .ok d => reading = run (complete d stack) tokens
  | .error e => ∃ expected, e = p.unexpected expected ∧ reading = .error (expected, tokens)

theorem Sees.run_of_step {t : Token} {state next : State} (h : Sees source p ⟨tokens, line, error⟩)
    (ht : p.current.token = some t) (hstep : step p.current.line t state = .ok next) :
    run state tokens = run next (tokens.drop 1) := by
  obtain ⟨rest, rfl⟩ := h.tokens_of_some ht
  rw [run, hstep]
  rfl

/-- The current token and the one behind it are consumed. -/
theorem exists_consumes_two {t t' : Token} (hp : p.Within source) (ht : p.current.token = some t)
    (ha : p.advance source = some q) (hq : q.current.token = some t') : ∃ q', q.advance source = some q' ∧
      Consumes source 2 p q' ∧ ∀ tokens line error state next next', Sees source p ⟨tokens, line, error⟩ →
        step p.current.line t state = .ok next → step q.current.line t' next = .ok next' →
          run state tokens = run next' (tokens.drop 2) := by
  have hc := Consumes.single ht ha
  obtain ⟨hwithin, -⟩ := hc.left_le hp
  obtain ⟨q', ha', -⟩ := advance_eq hwithin
  refine ⟨q', ha', hc.trans (.single hq ha'), fun tokens line error state next next' hs hstep hstep' => ?_⟩
  rw [hs.run_of_step ht hstep, (hc.sees hp hs).run_of_step hq hstep', List.drop_drop]

/-- A complaint about the current token. -/
theorem Sees.agrees_unexpected {state : State} {expected : Expectation} {stack : List Frame}
    (h : Sees source p ⟨tokens, line, error⟩)
    (hstep : ∀ t, p.current.token = some t → step p.current.line t state = .error expected)
    (hfinish : p.current.token = none → finish state = .error expected) :
    Agrees p tokens stack (run state tokens) (.error (p.unexpected expected)) := by
  refine ⟨expected, rfl, ?_⟩
  cases ht : p.current.token with
  | none =>
    obtain rfl := h.tokens_of_none ht
    rw [run, hfinish ht]
    rfl
  | some t =>
    obtain ⟨rest, rfl⟩ := h.tokens_of_some ht
    rw [run, hstep t ht]

/-- A datum may start with the current token inside the open structures, and has to if it is an end of the tokens. -/
structure Ready (p : Reader) (stack : List Frame) : Prop where
  step : ∀ t, p.current.token = some t →
    Datum.step p.current.line t (.reading stack) = begin p.current.line stack t
  finish : p.current.token = none → Datum.finish (.reading stack) = .error .datum

variable (source) in
/-- What reading a datum leads to. -/
def DatumRead (p : Reader) (r : Except SyntaxError Datum) (p' : Reader) : Prop :=
  ∃ k, Consumes source k p p' ∧ (∀ d, r = .ok d → 0 < k) ∧
    ∀ tokens line error stack, Sees source p ⟨tokens, line, error⟩ → Ready p stack →
      Agrees p' (tokens.drop k) stack (run (.reading stack) tokens) r

variable (source) in
/-- What leaving a loop leads to. -/
def LoopRead (l : Loop) (p : Reader) (r : Except SyntaxError Datum) (p' : Reader) : Prop :=
  ∃ k, Consumes source k p p' ∧ (∀ d, r = .ok d → l.Makes d) ∧
    ∀ tokens line error stack, Sees source p ⟨tokens, line, error⟩ →
      Agrees p' (tokens.drop k) stack (run (.reading (l.frame :: stack)) tokens) r

variable (source) in
/-- What going on with a loop leads to: a token at least has been consumed. -/
def AgainRead (l : Loop) (p : Reader) (l' : Loop) (p' : Reader) : Prop :=
  ∃ k, Consumes source k p p' ∧ 0 < k ∧ (∀ d, l'.Makes d → l.Makes d) ∧
    ∀ tokens line error stack, Sees source p ⟨tokens, line, error⟩ →
      run (.reading (l.frame :: stack)) tokens = run (.reading (l'.frame :: stack)) (tokens.drop k)

variable (source) in
/-- What one turn of a loop leads to. -/
def TurnRead (l : Loop) (p : Reader) : Turn → Reader → Prop
  | .leave r, p' => LoopRead source l p r p'
  | .again l', p' => AgainRead source l p l' p'

variable {l l' : Loop} {r : Except SyntaxError Datum} {p' p'' : Reader}

theorem AgainRead.loopRead (h : AgainRead source l p l' p') (hp : p.Within source) (h' : LoopRead source l' p' r p'') :
    LoopRead source l p r p'' := by
  obtain ⟨k, hc, -, hmakes, hrun⟩ := h
  obtain ⟨m, hc', hmakes', hagrees⟩ := h'
  refine ⟨k + m, hc.trans hc', fun d hd => hmakes d (hmakes' d hd), fun tokens line error stack hs => ?_⟩
  rw [hrun tokens line error stack hs, ← List.drop_drop]
  exact hagrees _ line error stack (hc.sees hp hs)

theorem turnRead_unexpected {expected : Expectation}
    (hstep : ∀ stack t, p.current.token = some t →
      step p.current.line t (.reading (l.frame :: stack)) = .error expected)
    (hfinish : ∀ stack, p.current.token = none → finish (.reading (l.frame :: stack)) = .error expected) :
    TurnRead source l p (.leave (.error (p.unexpected expected))) p := by
  refine ⟨0, .nil, (fun d hd => by cases hd), fun tokens line error stack hs => ?_⟩
  exact hs.agrees_unexpected (hstep stack) (hfinish stack)

/-- A complaint about the token behind the current one. -/
theorem turnRead_unexpected_next {t : Token} {frame : Frame} {expected : Expectation} (hp : p.Within source)
    (ht : p.current.token = some t) (ha : p.advance source = some q)
    (hnext : ∀ stack, step p.current.line t (.reading (l.frame :: stack)) = .ok (.reading (frame :: stack)))
    (hstep : ∀ stack t, q.current.token = some t → step q.current.line t (.reading (frame :: stack)) = .error expected)
    (hfinish : ∀ stack, q.current.token = none → finish (.reading (frame :: stack)) = .error expected) :
    TurnRead source l p (.leave (.error (q.unexpected expected))) q := by
  have hc := Consumes.single ht ha
  refine ⟨1, hc, (fun d hd => by cases hd), fun tokens line error stack hs => ?_⟩
  rw [hs.run_of_step ht (hnext stack)]
  exact (hc.sees hp hs).agrees_unexpected (hstep stack) (hfinish stack)

/-- The token that closes a structure. -/
theorem turnRead_close {t : Token} {d : Datum} (ht : p.current.token = some t) (ha : p.advance source = some p')
    (hmakes : l.Makes d)
    (hstep : ∀ stack, step p.current.line t (.reading (l.frame :: stack)) = .ok (complete d stack)) :
    TurnRead source l p (.leave (.ok d)) p' := by
  refine ⟨1, .single ht ha, (fun d' hd => by cases hd; exact hmakes), fun tokens line error stack hs => ?_⟩
  exact hs.run_of_step ht (hstep stack)

/-- A datum that is a part of the structure. -/
theorem turnRead_datum {next : Datum → Loop} (h : DatumRead source p r p')
    (hready : ∀ stack, Ready p (l.frame :: stack))
    (hnext : ∀ d stack, complete d (l.frame :: stack) = .reading ((next d).frame :: stack))
    (hmakes : ∀ d d', (next d).Makes d' → l.Makes d') : TurnRead source l p (.of next r) p' := by
  obtain ⟨k, hc, hpos, hagrees⟩ := h
  cases r with
  | ok d =>
    refine ⟨k, hc, hpos d rfl, hmakes d, fun tokens line error stack hs => ?_⟩
    rw [← hnext]
    exact hagrees tokens line error (l.frame :: stack) hs (hready stack)
  | error e =>
    refine ⟨k, hc, (fun d hd => by cases hd), fun tokens line error stack hs => ?_⟩
    exact hagrees tokens line error (l.frame :: stack) hs (hready stack)

/-- Behind a comma another entry is wanted, and the end of the map is left to the next turn. -/
theorem behindValue_eq {start : Nat} {entries entries' : List (String × Datum)} (hp : p.Within source)
    (hc : Consumes source k p p') (hk : 0 < k)
    (hrun : ∀ tokens line error stack, Sees source p ⟨tokens, line, error⟩ →
      run (.reading ((Loop.map start entries).frame :: stack)) tokens =
        run (.reading (.comma start entries' :: stack)) (tokens.drop k)) :
    ∃ t p'', p'.behindValue source start entries' = some (t, p'') ∧ TurnRead source (.map start entries) p t p'' := by
  obtain ⟨hwithin, -⟩ := hc.left_le hp
  obtain ⟨q, ha, -⟩ := advance_eq hwithin
  have other (hstep : ∀ stack t, p'.current.token = some t →
      step p'.current.line t (.reading (.comma start entries' :: stack)) = .error .entryEnd) :
      TurnRead source (.map start entries) p (.leave (.error (p'.unexpected .entryEnd))) p' := by
    refine ⟨k, hc, (fun d hd => by cases hd), fun tokens line error stack hs => ?_⟩
    rw [hrun tokens line error stack hs]
    exact (hc.sees hp hs).agrees_unexpected (hstep stack) fun _ => rfl
  rw [behindValue]
  cases ht : p'.current.token with
  | none => exact ⟨_, p', rfl, other fun _ t h => by rw [ht] at h; cases h⟩
  | some t =>
    cases t with
    | comma =>
      refine ⟨.again (.map start entries'), q, ?_, k + 1, hc.trans (.single ht ha), by omega, (fun _ h => h), ?_⟩
      · rw [ha]
        rfl
      intro tokens line error stack hs
      rw [hrun tokens line error stack hs, (hc.sees hp hs).run_of_step ht rfl, List.drop_drop]
      rfl
    | rightBrace =>
      refine ⟨_, p', rfl, k, hc, hk, (fun _ h => h), fun tokens line error stack hs => ?_⟩
      have hkey : run (.reading (.key start entries' :: stack)) (tokens.drop k) =
          run (complete (.map start entries'.reverse) stack) ((tokens.drop k).drop 1) :=
        (hc.sees hp hs).run_of_step ht rfl
      rw [hrun tokens line error stack hs, (hc.sees hp hs).run_of_step ht rfl]
      exact hkey.symm
    | _ => exact ⟨_, p', rfl, other fun _ t h => by rw [ht] at h; cases h; rfl⟩

variable (source) in
/-- So many calls are enough. -/
structure Enough (n : Nat) : Prop where
  datum : ∀ p, p.Within source → 3 * p.left source + 1 ≤ n →
    ∃ r p', datum source n p = some (r, p') ∧ DatumRead source p r p'
  turn : ∀ l p, p.Within source → 3 * p.left source + 2 ≤ n →
    ∃ t p', turn source n l p = some (t, p') ∧ TurnRead source l p t p'
  loop : ∀ l p, p.Within source → 3 * p.left source + 3 ≤ n →
    ∃ r p', loop source n l p = some (r, p') ∧ LoopRead source l p r p'

section Succ

variable {n : Nat} (ih : Enough source n) (hp : p.Within source)
include ih hp

theorem loop_succ (hn : 3 * p.left source + 3 ≤ n + 1) :
    ∃ r p', loop source (n + 1) l p = some (r, p') ∧ LoopRead source l p r p' := by
  obtain ⟨t, p', ht, h⟩ := ih.turn l p hp (by omega)
  rw [loop, ht]
  cases t with
  | leave r => exact ⟨r, p', rfl, h⟩
  | again l' =>
    have hagain : AgainRead source l p l' p' := h
    obtain ⟨k, hc, hpos, -⟩ := hagain
    obtain ⟨hp', hleft⟩ := hc.left_le hp
    obtain ⟨r, p'', hr, h'⟩ := ih.loop l' p' hp' (by omega)
    exact ⟨r, p'', hr, AgainRead.loopRead h hp h'⟩

/-- A token by which a structure is opened is consumed, and a loop reads the parts. -/
theorem datumRead_open {t : Token} (ht : p.current.token = some t)
    (hbegin : ∀ stack, begin p.current.line stack t = .ok (.reading (l.frame :: stack)))
    (hn : 3 * p.left source + 1 ≤ n + 1) : ∃ r p', (do loop source n l (← p.advance source)) = some (r, p') ∧
      DatumRead source p r p' := by
  obtain ⟨q, ha, -⟩ := advance_eq hp
  have hc := Consumes.single ht ha
  obtain ⟨hq, hleft⟩ := hc.left_le hp
  obtain ⟨r, p', hr, m, hc', -, hagrees⟩ := ih.loop l q hq (by omega)
  refine ⟨r, p', ?_, 1 + m, hc.trans hc', fun _ _ => by omega, fun tokens line error stack hs hready => ?_⟩
  · rw [ha]
    exact hr
  · rw [hs.run_of_step ht ((hready.step t ht).trans (hbegin stack)), ← List.drop_drop]
    exact hagrees _ line error stack (hc.sees hp hs)

theorem datum_succ (hn : 3 * p.left source + 1 ≤ n + 1) :
    ∃ r p', datum source (n + 1) p = some (r, p') ∧ DatumRead source p r p' := by
  obtain ⟨q, ha, -⟩ := advance_eq hp
  have atom {t : Token} {d : Datum} (ht : p.current.token = some t)
      (hbegin : ∀ stack, begin p.current.line stack t = .ok (complete d stack)) :
      ∃ r p', (do some (Except.ok d, ← p.advance source)) = some (r, p') ∧ DatumRead source p r p' := by
    refine ⟨.ok d, q, by rw [ha]; rfl, 1, .single ht ha, fun _ _ => Nat.one_pos, ?_⟩
    intro tokens line error stack hs hr
    exact hs.run_of_step ht ((hr.step t ht).trans (hbegin stack))
  have other (hbegin : ∀ t, p.current.token = some t → ∀ stack, begin p.current.line stack t = .error .datum) :
      ∃ r p', some (Except.error (p.unexpected .datum), p) = some (r, p') ∧ DatumRead source p r p' := by
    refine ⟨_, p, rfl, 0, .nil, (fun d hd => by cases hd), fun tokens line error stack hs hr => ?_⟩
    exact hs.agrees_unexpected (fun t ht => (hr.step t ht).trans (hbegin t ht stack)) hr.finish
  rw [datum]
  cases ht : p.current.token with
  | none => exact other (fun t h => by rw [ht] at h; cases h)
  | some t =>
    cases t with
    | symbol text | string text | number text => exact atom ht fun _ => rfl
    | leftParen | leftBracket | leftBrace => exact datumRead_open ih hp ht (fun _ => rfl) hn
    | _ => exact other (fun t h stack => by rw [ht] at h; cases h; rfl)

/-- A turn that reads a datum for a part of the structure. -/
theorem turn_datum {t : Token} {next : Datum → Loop} (ht : p.current.token = some t)
    (hstep : ∀ stack, step p.current.line t (.reading (l.frame :: stack)) = begin p.current.line (l.frame :: stack) t)
    (hnext : ∀ d stack, complete d (l.frame :: stack) = .reading ((next d).frame :: stack))
    (hmakes : ∀ d d', (next d).Makes d' → l.Makes d') (hn : 3 * p.left source + 2 ≤ n + 1) :
    ∃ t p', (do
      let (result, p) ← datum source n p
      some (Turn.of next result, p)) = some (t, p') ∧ TurnRead source l p t p' := by
  obtain ⟨r, p', hr, hdatum⟩ := ih.datum p hp (by omega)
  refine ⟨.of next r, p', by rw [hr]; rfl, turnRead_datum hdatum (fun stack => ⟨?_, ?_⟩) hnext hmakes⟩
  · intro t' ht'
    rw [ht] at ht'
    cases ht'
    exact hstep stack
  · intro ht'
    rw [ht] at ht'
    cases ht'

/-- The map behind a caret is merged into the metadata. -/
theorem turn_metadata {start : Nat} {metadata : List (String × Datum)} {items : List Datum}
    (ht : p.current.token = some .caret) (ha : p.advance source = some q) (hq : q.current.token = some .leftBrace)
    (hn : 3 * p.left source + 2 ≤ n + 1) : ∃ t p', (do
      let (result, p') ← loop source n (.map q.current.line []) (← q.advance source)
      some (Turn.of (fun d => .list start (mergeEntries metadata d.entries) items) result, p')) = some (t, p') ∧
        TurnRead source (.list start metadata items) p t p' := by
  obtain ⟨q', ha', hc, hsteps⟩ := exists_consumes_two hp ht ha hq
  obtain ⟨hwithin, hleft⟩ := hc.left_le hp
  obtain ⟨r, p', hr, m, hc', hmakes, hagrees⟩ := ih.loop (.map q.current.line []) q' hwithin (by omega)
  refine ⟨_, p', by rw [ha', Option.bind_eq_bind, Option.bind_some, hr]; rfl, ?_⟩
  -- both tokens lead into the map, with the list behind its caret around it
  have hrun : ∀ tokens line error stack, Sees source p ⟨tokens, line, error⟩ →
      Agrees p' (tokens.drop (2 + m)) (.caret start metadata items :: stack)
        (run (.reading (.list start metadata items :: stack)) tokens) r := by
    intro tokens line error stack hs
    rw [hsteps tokens line error _ _ _ hs rfl rfl, ← List.drop_drop]
    exact hagrees _ line error _ (hc.sees hp hs)
  cases r with
  | ok d =>
    obtain ⟨line', es, rfl⟩ := hmakes d rfl
    exact ⟨2 + m, hc.trans hc', by omega, fun _ _ => trivial, hrun⟩
  | error e => exact ⟨2 + m, hc.trans hc', fun _ _ => trivial, hrun⟩

theorem turn_list_succ {start : Nat} {metadata : List (String × Datum)} {items : List Datum}
    (hn : 3 * p.left source + 2 ≤ n + 1) : ∃ t p', turn source (n + 1) (.list start metadata items) p = some (t, p') ∧
      TurnRead source (.list start metadata items) p t p' := by
  obtain ⟨q, ha, -⟩ := advance_eq hp
  rw [turn]
  cases ht : p.current.token with
  | none => exact ⟨_, p, rfl, turnRead_unexpected (fun _ t h => by rw [ht] at h; cases h) fun _ _ => rfl⟩
  | some t =>
    cases t with
    | rightParen => exact ⟨_, q, by rw [ha]; rfl, turnRead_close ht ha trivial fun _ => rfl⟩
    | caret =>
      simp only [ha, Option.bind_eq_bind, Option.bind_some]
      by_cases hq : q.current.token = some .leftBrace
      · rw [if_pos hq]
        exact turn_metadata ih hp ht ha hq hn
      · rw [if_neg hq]
        refine ⟨_, q, rfl, turnRead_unexpected_next hp ht ha (fun _ => rfl) ?_ fun _ _ => rfl⟩
        intro stack t h
        rw [h] at hq
        cases t with
        | leftBrace => exact absurd rfl hq
        | _ => rfl
    | _ => exact turn_datum ih hp ht (fun _ => rfl) (fun _ _ => rfl) (fun _ _ => id) hn

theorem turn_array_succ {start : Nat} {items : List Datum} (hn : 3 * p.left source + 2 ≤ n + 1) :
    ∃ t p', turn source (n + 1) (.array start items) p = some (t, p') ∧
      TurnRead source (.array start items) p t p' := by
  obtain ⟨q, ha, -⟩ := advance_eq hp
  rw [turn]
  cases ht : p.current.token with
  | none => exact ⟨_, p, rfl, turnRead_unexpected (fun _ t h => by rw [ht] at h; cases h) fun _ _ => rfl⟩
  | some t =>
    cases t with
    | rightBracket => exact ⟨_, q, by rw [ha]; rfl, turnRead_close ht ha trivial fun _ => rfl⟩
    | _ => exact turn_datum ih hp ht (fun _ => rfl) (fun _ _ => rfl) (fun _ _ => id) hn

/-- A value is read behind its key and the colon, and the map stands behind the value. -/
theorem value_agrees {start : Nat} {entries : List (String × Datum)} {key : String}
    (ht : p.current.token = some (.symbol key)) (ha : p.advance source = some q) (hq : q.current.token = some .colon)
    (hn : 3 * p.left source + 2 ≤ n + 1) : ∃ r p' k, (do datum source n (← q.advance source)) = some (r, p') ∧
      Consumes source k p p' ∧ 0 < k ∧ ∀ tokens line error stack, Sees source p ⟨tokens, line, error⟩ →
        Agrees p' (tokens.drop k) (.value start entries key :: stack)
          (run (.reading (.key start entries :: stack)) tokens) r := by
  obtain ⟨q', ha', hc, hsteps⟩ := exists_consumes_two hp ht ha hq
  obtain ⟨hwithin, hleft⟩ := hc.left_le hp
  obtain ⟨r, p', hr, m, hc', -, hagrees⟩ := ih.datum q' hwithin (by omega)
  refine ⟨r, p', 2 + m, by rw [ha']; exact hr, hc.trans hc', by omega, fun tokens line error stack hs => ?_⟩
  rw [hsteps tokens line error _ _ _ hs rfl rfl, ← List.drop_drop]
  exact hagrees _ line error _ (hc.sees hp hs) ⟨fun _ _ => rfl, fun _ => rfl⟩

theorem turn_entry {start : Nat} {entries : List (String × Datum)} {key : String}
    (ht : p.current.token = some (.symbol key)) (ha : p.advance source = some q) (hq : q.current.token = some .colon)
    (hn : 3 * p.left source + 2 ≤ n + 1) : ∃ t p', (do
        let (result, p) ← datum source n (← q.advance source)
        match result with
        | .error e => some (.leave (.error e), p)
        | .ok d => p.behindValue source start ((key, d) :: entries)) = some (t, p') ∧
        TurnRead source (.map start entries) p t p' := by
  obtain ⟨r, p', k, hr, hc, hk, hagrees⟩ := value_agrees ih hp ht ha hq hn
  simp only [Option.bind_eq_bind] at hr ⊢
  rw [← Option.bind_assoc, hr, Option.bind_some]
  cases r with
  | error e => exact ⟨_, p', rfl, k, hc, (fun d hd => by cases hd), hagrees⟩
  | ok d => exact behindValue_eq hp hc hk hagrees

theorem turn_map_succ {start : Nat} {entries : List (String × Datum)} (hn : 3 * p.left source + 2 ≤ n + 1) :
    ∃ t p', turn source (n + 1) (.map start entries) p = some (t, p') ∧
      TurnRead source (.map start entries) p t p' := by
  obtain ⟨q, ha, -⟩ := advance_eq hp
  rw [turn]
  cases ht : p.current.token with
  | none => exact ⟨_, p, rfl, turnRead_unexpected (fun _ t h => by rw [ht] at h; cases h) fun _ _ => rfl⟩
  | some t =>
    cases t with
    | rightBrace => exact ⟨_, q, by rw [ha]; rfl, turnRead_close ht ha ⟨_, _, rfl⟩ fun _ => rfl⟩
    | symbol key =>
      simp only [ha, Option.bind_eq_bind, Option.bind_some]
      by_cases hq : q.current.token = some .colon
      · rw [if_pos hq]
        exact turn_entry ih hp ht ha hq hn
      · rw [if_neg hq]
        refine ⟨_, q, rfl, turnRead_unexpected_next hp ht ha (fun _ => rfl) ?_ fun _ _ => rfl⟩
        intro stack t h
        rw [h] at hq
        cases t with
        | colon => exact absurd rfl hq
        | _ => rfl
    | _ =>
      refine ⟨_, p, rfl, turnRead_unexpected (fun _ t h => ?_) fun _ h => ?_⟩
      · rw [ht] at h
        cases h
        rfl
      · rw [ht] at h
        cases h

end Succ

variable (source) in
/-- Three calls for each token that is left are enough. -/
theorem enough (n : Nat) : Enough source n := by
  induction n with
  | zero => exact ⟨fun _ _ h => by omega, fun _ _ _ h => by omega, fun _ _ _ h => by omega⟩
  | succ n ih =>
    -- a loop calls a turn, and a turn a datum, with the same tokens left; the calls back have consumed one
    refine ⟨fun p hp hn => datum_succ ih hp hn, fun l p hp hn => ?_, fun l p hp hn => loop_succ ih hp hn⟩
    cases l with
    | list => exact turn_list_succ ih hp hn
    | array => exact turn_array_succ ih hp hn
    | map => exact turn_map_succ ih hp hn

/-! ### The whole source -/

variable (source) in
/-- The first two tokens are read, and the reader stands before all tokens of the source. -/
theorem exists_advance_start : ∃ p q, start.advance source = some p ∧ p.advance source = some q ∧ q.Within source ∧
    Sees source q (Token.scan 1 (Text.Utf8.decode source)) := by
  have hrounds : (start.lexer.ahead source).length + 1 < source.length + 2 :=
    Nat.add_lt_add_of_le_of_lt start.lexer.length_ahead_le (by decide)
  obtain ⟨⟨t, c⟩, hr, -, hlength, hread⟩ := Cursor.nextToken_eq (Nat.zero_le _) hrounds
  -- the reader goes on in the same way from any current token, as if it had been consumed
  let a : Placed := ⟨0, .comma⟩
  obtain ⟨q, hq, hwithin, -, hsees⟩ := advance_eq (p := ⟨c, ⟨a.line, some a.token⟩, t⟩) hlength
  refine ⟨⟨c, ⟨0, none⟩, t⟩, q, ?_, hq, hwithin, hsees a _ _ _ (sees_of_nextRead hread rfl a)⟩
  rw [advance, hr]
  rfl

/-- The lexical error of the source has been met where at most one token stands before it. -/
theorem Sees.lexicalError_eq (h : Sees source p ⟨tokens, line, error⟩) (all : List Placed) :
    lexicalError ⟨all, line, error⟩ tokens = p.lexer.errors.head?.map fun e => .lexical e.1 e.2 := by
  cases h with
  | @more _ _ _ s herrors =>
    rw [herrors, lexicalError]
    cases s.error with
    | none => rfl
    | some e => exact if_neg (by simp only [List.length_cons]; omega)
  | last herrors | finished herrors =>
    rw [herrors]
    rfl
  | lastFailed herrors | failed herrors =>
    rw [herrors]
    rfl

theorem answer_of_cons {e : Nat × Token.Error} (h : p.lexer.errors.head? = some e) (r : Except SyntaxError Datum) :
    p.answer r = .error (.lexical e.1 e.2) := by
  obtain ⟨rest, h⟩ := List.head?_eq_some_iff.1 h
  simp only [answer, h]

/-- A token behind the datum is not what was wanted. -/
theorem answer_ok (h : p.current.token ≠ none) (d : Datum) :
    p.answer (.ok d) = p.answer (.error (p.unexpected .endOfText)) := by
  unfold answer
  split
  · rfl
  · exact if_neg h

/-- A complaint about the current token is the answer for the source if no lexical error has been met. -/
theorem Sees.ofScan_eq_error {expected : Expectation} {all : List Placed} (h : Sees source p ⟨tokens, line, error⟩)
    (hrun : run (.reading []) all = .error (expected, tokens)) :
    ofScan ⟨all, line, error⟩ = p.answer (.error (p.unexpected expected)) := by
  simp only [ofScan, hrun, h.lexicalError_eq all]
  cases h with
  | more herrors | last herrors | finished herrors =>
    rw [answer, herrors]
    rfl
  | lastFailed herrors | failed herrors =>
    rw [answer_of_cons herrors, herrors]
    rfl

/-- The answer for the source if a datum has been read or the current token is not what was wanted. -/
theorem Sees.ofScan_eq {all : List Placed} (h : Sees source p ⟨tokens, line, error⟩)
    (hr : Agrees p tokens [] (run (.reading []) all) r) : ofScan ⟨all, line, error⟩ = p.answer r := by
  cases r with
  | error e =>
    obtain ⟨expected, rfl, hrun⟩ := hr
    exact h.ofScan_eq_error hrun
  | ok d =>
    have hrun : run (.reading []) all = run (.done d) tokens := hr
    cases tokens with
    | cons t rest =>
      have htoken : p.current.token ≠ none := fun hnone => by cases h.tokens_of_none hnone
      rw [answer_ok htoken]
      exact h.ofScan_eq_error hrun
    | nil =>
      have hdone : run (.reading []) all = .ok d := hrun
      simp only [ofScan, hdone, h.lexicalError_eq all]
      cases h with
      | finished herrors =>
        rw [answer, herrors]
        rfl
      | failed herrors =>
        rw [answer_of_cons herrors, herrors]
        rfl

theorem parse_eq {n : Nat} (hn : 3 * (source.length + 2) + 1 ≤ n) :
    parse source n = some (Datum.parse (Text.Utf8.decode source)) := by
  obtain ⟨p, q, hp, hq, hwithin, hs⟩ := exists_advance_start source
  have hleft : q.left source ≤ source.length + 2 := q.left_le
  obtain ⟨r, p', hr, k, hc, -, hagrees⟩ := (enough source n).datum q hwithin (by omega)
  rw [Datum.parse]
  generalize Token.scan 1 (Text.Utf8.decode source) = s at hs
  obtain ⟨all, line, error⟩ := s
  have hanswer := (hc.sees hwithin hs).ofScan_eq (hagrees all line error [] hs ⟨fun _ _ => rfl, fun _ => rfl⟩)
  rw [hanswer]
  simp only [parse, hp, hq, hr, Option.bind_eq_bind, Option.bind_some]

variable (source) in
/-- A call for a token ends. It meets an end of the tokens, or it takes the first of the tokens ahead and moves on. -/
theorem nextToken_ends {c : Cursor} {n : Nat} (hc : c.pos ≤ source.length) (hn : source.length + 2 ≤ n) :
    ∃ t c', Cursor.nextToken source n c = some (t, c') ∧ c.pos ≤ c'.pos ∧ c'.pos ≤ source.length ∧
      ((t.token = none ∧ (Token.scan c.line (c.ahead source)).tokens = []) ∨
        (c.pos < c'.pos ∧ ∃ token, t.token = some token ∧ (Token.scan c.line (c.ahead source)).tokens =
          ⟨t.line, token⟩ :: (Token.scan c'.line (c'.ahead source)).tokens)) := by
  have hrounds : (c.ahead source).length + 1 < n := by
    have hle : (c.ahead source).length ≤ source.length := c.length_ahead_le
    omega
  obtain ⟨⟨t, c'⟩, hr, hle, hlength, hread⟩ := Cursor.nextToken_eq hc hrounds
  refine ⟨t, c', hr, hle, hlength, ?_⟩
  generalize Token.scan c.line (c.ahead source) = s at hread
  cases hread with
  | token hpos _ hs =>
    refine .inr ⟨hpos, _, rfl, ?_⟩
    rw [hs]
  | finished | failed => exact .inl ⟨rfl, rfl⟩

/-- A turn of a loop ends. It leaves the loop, or it consumes a token. -/
theorem turn_ends {n : Nat} (hp : p.Within source) (hn : 3 * p.left source + 2 ≤ n) :
    ∃ t p' k, turn source n l p = some (t, p') ∧ Consumes source k p p' ∧ ((∃ r, t = .leave r) ∨ 0 < k) := by
  obtain ⟨t, p', ht, h⟩ := (enough source n).turn l p hp hn
  cases t with
  | leave r =>
    obtain ⟨k, hc, -⟩ := h
    exact ⟨_, p', k, ht, hc, .inl ⟨r, rfl⟩⟩
  | again l' =>
    obtain ⟨k, hc, hk, -⟩ := h
    exact ⟨_, p', k, ht, hc, .inr hk⟩

/-- Reading ends on every source, whatever its bytes are.

* A call for a token needs no more rounds than the source has bytes, and two. It meets an end of the tokens or moves the
  cursor on, and never moves it behind the source.
* A turn of a loop leaves the loop or consumes a token, and so every loop ends and every datum is read. This is so from
  all states of the reader, also from those behind an error that stands as an end between two tokens.
* The source is read, with the answer that is found when all tokens are read first. -/
theorem reading_ends (source : List UInt8) :
    (∀ c n, c.pos ≤ source.length → source.length + 2 ≤ n → ∃ t c', Cursor.nextToken source n c = some (t, c') ∧
      c.pos ≤ c'.pos ∧ c'.pos ≤ source.length ∧
      ((t.token = none ∧ (Token.scan c.line (c.ahead source)).tokens = []) ∨
        (c.pos < c'.pos ∧ ∃ token, t.token = some token ∧ (Token.scan c.line (c.ahead source)).tokens =
          ⟨t.line, token⟩ :: (Token.scan c'.line (c'.ahead source)).tokens))) ∧
    (∀ l p n, p.Within source → 3 * p.left source + 2 ≤ n → ∃ t p' k, turn source n l p = some (t, p') ∧
      Consumes source k p p' ∧ ((∃ r, t = .leave r) ∨ 0 < k)) ∧
    (∀ l p n, p.Within source → 3 * p.left source + 3 ≤ n → ∃ r p', loop source n l p = some (r, p')) ∧
    (∀ p n, p.Within source → 3 * p.left source + 1 ≤ n → ∃ r p', datum source n p = some (r, p')) ∧
    ∀ n, 3 * (source.length + 2) + 1 ≤ n → parse source n = some (Datum.parse (Text.Utf8.decode source)) := by
  refine ⟨fun c n hc hn => nextToken_ends source hc hn, fun l p n hp hn => turn_ends hp hn, ?_, ?_, fun n => parse_eq⟩
  · intro l p n hp hn
    obtain ⟨r, p', hr, -⟩ := (enough source n).loop l p hp hn
    exact ⟨r, p', hr⟩
  · intro p n hp hn
    obtain ⟨r, p', hr, -⟩ := (enough source n).datum p hp hn
    exact ⟨r, p', hr⟩

/-- A list that is not closed, with a bad escape, two symbols, a byte that starts no character and a NUL. -/
def interrupted : List UInt8 := [0x28, 0x22, 0x5C, 0x71, 0x20, 0x61, 0x20, 0xFF, 0x00]

/-- The reader at the end that the bad escape has left between the tokens. -/
def interruption : Reader := ⟨⟨4, 1, [(1, .invalidEscape 'q')]⟩, ⟨1, none⟩, ⟨1, some (.symbol "q")⟩⟩

theorem interrupted_ends :
    (do (← (← start.advance interrupted).advance interrupted).advance interrupted) = some interruption ∧
    (∃ t c', Cursor.nextToken interrupted 11 interruption.lexer = some (t, c') ∧ 4 < c'.pos ∧ c'.pos ≤ 9) ∧
    (∃ t p' k, turn interrupted 2 (.list 1 [] []) interruption = some (t, p') ∧
      Consumes interrupted k interruption p' ∧ ((∃ r, t = .leave r) ∨ 0 < k)) ∧
    parse interrupted 34 = some (.error (.lexical 1 (.invalidEscape 'q'))) := by
  obtain ⟨htoken, hturn, -, -, hparse⟩ := reading_ends interrupted
  refine ⟨by decide +kernel, ?_, hturn _ interruption 2 (by unfold Within; decide) (by decide), ?_⟩
  · obtain ⟨t, c', hc, -, hlength, hend | hmoves⟩ := htoken interruption.lexer 11 (by decide) (by decide)
    · exact absurd hend.2 (by decide +kernel)
    · exact ⟨t, c', hc, hmoves.1, hlength⟩
  · have hscan : Token.scan 1 (Text.Utf8.decode interrupted) = ⟨[⟨1, .leftParen⟩], 1, some (.invalidEscape 'q')⟩ := by
      decide +kernel
    rw [hparse 34 (by decide), Datum.parse, hscan]
    rfl

end Reader

end Arvore.Datum
