import Arvore.Code.Gen

/-!
# The code of expressions

Both operands of an operation are always computed, the left one first. Integers have 32 bits in registers too, so
arithmetic on them ends by extending the sign again. An operation on an integer and a real converts the integer.
-/

namespace Arvore

open Assembly

/-- The registers for the first six arguments of a call. -/
def argumentRegisters : List Register := [.rdi, .rsi, .rdx, .rcx, .r8, .r9]

/-- The number that stands for a truth value. -/
def truthValue (word : String) : Int := if word = trueWord then 1 else 0

/-- The text under which a real literal is pooled. -/
def realPayload (text : String) : Except Fault String :=
  match Real.read text.toList with
  | .ok x => .ok (String.ofList (Real.literal x))
  | .error error => .error (.badReal text error)

/-- The code of a number literal. Reals and integers of more than 32 bits are pooled by their value. -/
def Numeral.code (text : String) : Gen Listing :=
  if !isIntegral text then do
    let label ← Gen.intern Category.float (← realPayload text)
    return instrs [.mov .quad (.data label) (.reg .rax)]
  else
    match immediate? text with
    | some value => return instrs [.mov .quad (.imm value) (.reg .rax)]
    | none =>
      match integer? text with
      | some value => do
        let label ← Gen.intern Category.int (toString value)
        return instrs [.mov .quad (.data label) (.reg .rax)]
      | none => throw (.badInteger text)

/-- Converts the integer in `%rax` to a real. -/
def convertCode : Listing := instrs [.convert .rax .xmm0, .ofReal .xmm0 .rax]

/-- The conversion that an operand of the given type needs to be a real. -/
def widenCode (type : Ty) : Listing := if type = .integer then convertCode else []

/-- Computes two operands, given the code of each. -/
def operandsCode (left right : Listing) : Listing :=
  left ++ instrs [.push (.reg .rax)] ++ right ++ instrs [.mov .quad (.reg .rax) (.reg .rcx), .pop .rax]

/-- Moves two real operands to the registers for reals. -/
def realOperandsCode : Listing := instrs [.toReal .rax .xmm0, .toReal .rcx .xmm1]

/-- Combines two integers. -/
def ArithmeticOp.integerCode : ArithmeticOp → Except Fault (List Instr)
  | add => .ok [.alu .add .quad (.reg .rcx) .rax]
  | sub => .ok [.alu .sub .quad (.reg .rcx) .rax]
  | mul => .ok [.alu .imul .quad (.reg .rcx) .rax]
  | div => .ok [.signExtend, .idiv .rcx]
  | other symbol => .error (.unsupportedOperator "binary" symbol)

/-- The operation that combines two reals. -/
def ArithmeticOp.realOp : ArithmeticOp → Except Fault RealOp
  | add => .ok .add
  | sub => .ok .sub
  | mul => .ok .mul
  | div => .ok .div
  | other symbol => .error (.unsupportedOperator "binary" symbol)

/-- Combines two truth values. -/
def LogicalOp.code : LogicalOp → Except Fault (List Instr)
  | and => .ok [.alu .and .quad (.reg .rcx) .rax]
  | or => .ok [.alu .or .quad (.reg .rcx) .rax]
  | other symbol => .error (.unsupportedOperator "logical" symbol)

/-- The condition under which a comparison of two integers holds. -/
def RelationalOp.condition : RelationalOp → Except Fault Condition
  | eq => .ok .equal
  | ne => .ok .notEqual
  | lt => .ok .less
  | le => .ok .lessEqual
  | gt => .ok .greater
  | ge => .ok .greaterEqual
  | other symbol => .error (.unsupportedOperator "relational" symbol)

/-- Compares two reals into `%al`. Every comparison with something that is no number fails, but for inequality. -/
def RelationalOp.realCode : RelationalOp → Except Fault (List Instr)
  | eq => .ok [.compareReal .xmm1 .xmm0, .set .equal .rax, .set .noParity .rcx, .alu .and .byte (.reg .rcx) .rax]
  | ne => .ok [.compareReal .xmm1 .xmm0, .set .notEqual .rax, .set .parity .rcx, .alu .or .byte (.reg .rcx) .rax]
  | lt => .ok [.compareReal .xmm0 .xmm1, .set .above .rax]
  | le => .ok [.compareReal .xmm0 .xmm1, .set .aboveEqual .rax]
  | gt => .ok [.compareReal .xmm1 .xmm0, .set .above .rax]
  | ge => .ok [.compareReal .xmm1 .xmm0, .set .aboveEqual .rax]
  | other symbol => .error (.unsupportedOperator "relational" symbol)

/-- Applies an operator to the value in `%rax`; `type` is the type of the result. -/
def UnaryOp.code (type : Except Fault Ty) : UnaryOp → Except Fault (List Instr)
  | neg => do
    if (← type) = .real then return [.flip 63 .rax]
    else return [.neg .rax, .movSigned (.reg .rax) .rax]
  | not => .ok [.alu .xor .quad (.imm 1) .rax]
  | other symbol => .error (.unsupportedOperator "unary" symbol)

/-- Pushes the stacked arguments from the seventh on once more, the last one first, so that the seventh ends on top.
Every push moves the stack by eight bytes, so each argument is found sixteen bytes further up. -/
def repushCode (n : Nat) : List Instr :=
  (List.range (n - argumentRegisters.length)).map fun (i : Nat) => .push (.mem .rsp (16 * (i : Int)))

/-- Loads the first six of `n` stacked arguments, above which `extra` have been pushed again. -/
def registerCode (n extra : Nat) : List Instr :=
  (argumentRegisters.take n).zipIdx.map fun (r, i) =>
    .mov .quad (.mem .rsp (8 * ((n : Int) - 1 - i) + 8 * extra)) (.reg r)

/-- Calls a function with `n` arguments that are on the stack, the last one on top, and takes them off. -/
def callCode (function : String) (n : Nat) : Listing :=
  let extra := n - argumentRegisters.length
  instrs (repushCode n ++ registerCode n extra ++ [.call function] ++
    if n = 0 then [] else [.alu .add .quad (.imm (8 * (n + extra))) .rsp])

namespace Expr

mutual

/-- The code that leaves the value of an expression in `%rax`. -/
def code (target : Target) : Expr → Gen Listing
  | number _ text => Numeral.code text
  | string _ text => do
    let label ← Gen.intern Category.string text
    return instrs [.lea (.data label) .rax]
  | boolean _ word => return instrs [.mov .quad (.imm (truthValue word)) (.reg .rax)]
  | var _ name => do (← target.find name).load
  | arithmetic l op a b => do
    let type ← target.typeOf (arithmetic l op a b)
    let left ← code target a
    let right ← code target b
    if type = .real then
      let left := left ++ widenCode (← target.typeOf a)
      let right := right ++ widenCode (← target.typeOf b)
      return operandsCode left right ++ realOperandsCode ++
        instrs [.real (← op.realOp) .xmm1 .xmm0, .ofReal .xmm0 .rax]
    else
      return operandsCode left right ++ instrs ((← op.integerCode) ++ [.movSigned (.reg .rax) .rax])
  | logical _ op a b => do
    let left ← code target a
    let right ← code target b
    return operandsCode left right ++ instrs (← op.code)
  | relational _ op a b => do
    let leftType ← target.typeOf a
    let rightType ← target.typeOf b
    let left ← code target a
    let right ← code target b
    if leftType = .real || rightType = .real then
      return operandsCode (left ++ widenCode leftType) (right ++ widenCode rightType) ++ realOperandsCode ++
        instrs ((← op.realCode) ++ [.movZero (.reg .rax) .rax])
    else
      return operandsCode left right ++
        instrs [.alu .cmp .quad (.reg .rcx) .rax, .set (← op.condition) .rax, .movZero (.reg .rax) .rax]
  | unary l op e => do
    let operand ← code target e
    return operand ++ instrs (← op.code (target.typeOf (unary l op e)))
  | call _ callee args => do
    let stacked ← argsCode target args
    return stacked ++ callCode callee.name args.length
  | foreign _ kind => throw (.notExpression kind)
  | absent => throw .missingPart

/-- Computes arguments one after the other and leaves them on the stack. -/
def argsCode (target : Target) : List Expr → Gen Listing
  | [] => return []
  | e :: rest => do
    let first ← code target e
    let others ← argsCode target rest
    return first ++ instrs [.push (.reg .rax)] ++ others

end

end Expr

end Arvore
