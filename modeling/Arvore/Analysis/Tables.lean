import Arvore.Analysis.Typing

/-!
# The tables of a program

The global table has one symbol for each function. The table of a function has its parameters in order, then every
declared variable in the order of the text, whatever block it stands in.
-/

namespace Arvore

/-- The signature of a function. -/
def Function.signature (f : Function) : Except Fault Signature :=
  match f.flaw with
  | none => .ok ⟨f.params.map (·.type), f.result⟩
  | some (.parameter types) => .ok ⟨f.params.map (·.type) ++ types, f.result⟩
  | some .signature => .error .missingPart

/-- The symbol of a function. -/
def Function.symbol (f : Function) : Except Fault Symbol := do
  return { name := f.name, type := .function, line := f.line, signature := some (← f.signature) }

/-- Adds a function. -/
def Function.define (table : SymbolTable) (f : Function) : Except Failure SymbolTable := do
  let s ← f.symbol.mapError .fault
  (table.define f.name s).mapError .diagnostic

/-- The functions of a program. -/
def Program.globals (p : Program) : Except Failure SymbolTable := p.functions.foldlM Function.define {}

/-- An initial value has exactly the declared type. -/
def DeclItem.checkInit (scope : Scope) (type : Ty) (item : DeclItem) : Except Failure Unit :=
  match item.init with
  | none => .ok ()
  | some value => do
    let given ← value.typeOf scope
    if given != type then reject item.target.line (.initializer item.target.name type given)

/-- Adds a declared variable. Its initial value can only use what was declared before it. -/
def DeclItem.define (globals : SymbolTable) (type : Ty) (locals : SymbolTable) (item : DeclItem) :
    Except Failure SymbolTable := do
  item.checkInit ⟨locals, globals⟩ type
  return (← locals.defineVariable item.target.name type item.target.line).2

/-- Adds the variables of a declaration; other statements add none. A statement that lacks the parts to look into is
refused. -/
def Stmt.define (globals : SymbolTable) (locals : SymbolTable) : Stmt → Except Failure SymbolTable
  | declare _ type items => items.foldlM (DeclItem.define globals type) locals
  | incomplete _ .declaration | incomplete _ .branch | incomplete _ .whileLoop | incomplete _ .forLoop =>
    .error (.fault .missingPart)
  | _ => .ok locals

/-- Adds a parameter. -/
def Param.define (locals : SymbolTable) (p : Param) : Except Failure SymbolTable := do
  return (← locals.defineVariable p.target.name p.type p.line).2

/-- A function without a flaw. -/
def Function.checkHead (f : Function) : Except Failure Unit :=
  match f.flaw with
  | none => .ok ()
  | some _ => .error (.fault .missingPart)

/-- The parameters and variables of a function. -/
def Function.locals (globals : SymbolTable) (f : Function) : Except Failure SymbolTable := do
  let params ← f.params.foldlM Param.define {}
  f.checkHead
  (Stmt.nestedAll f.body).foldlM (Stmt.define globals) params

end Arvore
