import Arvore.Datum.Printer
import Arvore.Fault
import Arvore.Symbol.Basic

/-!
# Symbol tables

A table holds the symbols of one scope in the order of their definition: the functions of a program, or the
parameters and locals of one function. The first definition of a name stays. The variables of a table fill a frame
downwards, each directly below the one before it, without gaps. Places are words of 64 bits.
-/

namespace Arvore

/-- The symbols of a scope with the names they are found under, in the order of definition. -/
structure SymbolTable where
  entries : List (String × Symbol) := []
  deriving DecidableEq, Repr

namespace SymbolTable

/-- The symbols in the order of definition. -/
def symbols (t : SymbolTable) : List Symbol := t.entries.map (·.2)

/-- The number of symbols. -/
def size (t : SymbolTable) : Nat := t.entries.length

/-- The symbol under a name. -/
def find? (t : SymbolTable) (name : String) : Option Symbol := t.entries.lookup name

/-- The symbol under a name, or the diagnostic that there is none. -/
def lookup (t : SymbolTable) (name : String) : Except Diagnostic Symbol :=
  match t.find? name with
  | some s => .ok s
  | none => .error ⟨0, .notFound name⟩

/-- Adds a symbol under a new name. -/
def define (t : SymbolTable) (name : String) (s : Symbol) : Except Diagnostic SymbolTable :=
  match t.find? name with
  | some previous => .error ⟨s.line, .redeclared name previous.line⟩
  | none => .ok ⟨t.entries ++ [(name, s)]⟩

/-- The symbol that was defined last. -/
def last? (t : SymbolTable) : Option Symbol := t.symbols.getLast?

/-- The word of 64 bits for a number: one that leaves the range comes in again at the other end. -/
def wrap (n : Int) : Int := n.bmod 18446744073709551616

/-- A number in the range is its own word. -/
theorem wrap_of_fits {n : Int} (low : -9223372036854775808 ≤ n) (high : n < 9223372036854775808) : wrap n = n := by
  simp only [wrap, Int.bmod_def]
  omega

/-- The number of bytes of the frame: the last variable stands lowest. -/
def frameSize (t : SymbolTable) : Int :=
  match t.last? with
  | some s => if s.placed then wrap (-s.offset) else 0
  | none => 0

/-- The lowest place that is taken, the frame pointer itself if none is. -/
def lowest (symbols : List Symbol) : Int :=
  symbols.foldl (fun low s => if s.placed && s.offset < low then s.offset else low) 0

/-- The place for a variable below all symbols that are there. -/
def nextOffset (symbols : List Symbol) (type : Ty) : Except Fault Int :=
  match type.size? with
  | some size => .ok (wrap (lowest symbols - size))
  | none => .error (.noStorage type)

/-- Adds a variable at the next free place. The place is found before the name is looked at. -/
def defineVariable (t : SymbolTable) (name : String) (type : Ty) (line : Int) :
    Except Failure (Symbol × SymbolTable) := do
  let offset ← (nextOffset t.symbols type).mapError .fault
  let s : Symbol := { name, type, line, offset, placed := true }
  let t ← (t.define name s).mapError .diagnostic
  return (s, t)

/-- The frame of a function as a datum: its name, then name, type and place of every symbol. -/
def listing (t : SymbolTable) (function : String) : Datum :=
  .list 0 [] (.symbol 0 "symbols" :: .symbol 0 function :: t.symbols.map fun s =>
    .list 0 [] [.symbol 0 s.name, .symbol 0 s.type.word, .number 0 (toString s.offset)])

end SymbolTable

end Arvore
