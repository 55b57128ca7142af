import Arvore.Assembly.Basic
import Arvore.Assembly.Quoted

/-!
# The text of assembly

The listing in AT&T form: one line each, instructions and directives indented by four blanks.
-/

namespace Arvore.Assembly

/-- The name of a register for a width. -/
def Register.name : Width → Register → String
  | .quad, rax => "%rax"
  | .quad, rcx => "%rcx"
  | .quad, rdx => "%rdx"
  | .quad, rsi => "%rsi"
  | .quad, rdi => "%rdi"
  | .quad, r8 => "%r8"
  | .quad, r9 => "%r9"
  | .quad, rsp => "%rsp"
  | .quad, rbp => "%rbp"
  | .long, rax => "%eax"
  | .long, rcx => "%ecx"
  | .long, rdx => "%edx"
  | .long, rsi => "%esi"
  | .long, rdi => "%edi"
  | .long, r8 => "%r8d"
  | .long, r9 => "%r9d"
  | .long, rsp => "%esp"
  | .long, rbp => "%ebp"
  | .byte, rax => "%al"
  | .byte, rcx => "%cl"
  | .byte, rdx => "%dl"
  | .byte, rsi => "%sil"
  | .byte, rdi => "%dil"
  | .byte, r8 => "%r8b"
  | .byte, r9 => "%r9b"
  | .byte, rsp => "%spl"
  | .byte, rbp => "%bpl"

/-- The name of a register for reals. -/
def RealRegister.name : RealRegister → String
  | xmm0 => "%xmm0"
  | xmm1 => "%xmm1"

/-- The letter that an instruction ends in. -/
def Width.letter : Width → String
  | byte => "b"
  | long => "l"
  | quad => "q"

/-- The text of an operand, a register by its name for the width. -/
def Operand.text (width : Width) : Operand → String
  | imm value => "$" ++ toString value
  | reg r => r.name width
  | mem base offset => toString offset ++ "(" ++ base.name .quad ++ ")"
  | data label => label.name ++ "(%rip)"

/-- The name of an operation. -/
def Alu.name : Alu → String
  | add => "add"
  | sub => "sub"
  | imul => "imul"
  | and => "and"
  | or => "or"
  | xor => "xor"
  | cmp => "cmp"

/-- The name of an operation on reals. -/
def RealOp.name : RealOp → String
  | add => "addsd"
  | sub => "subsd"
  | mul => "mulsd"
  | div => "divsd"

/-- The letters that name a condition. -/
def Condition.letters : Condition → String
  | equal => "e"
  | notEqual => "ne"
  | less => "l"
  | lessEqual => "le"
  | greater => "g"
  | greaterEqual => "ge"
  | above => "a"
  | aboveEqual => "ae"
  | parity => "p"
  | noParity => "np"

/-- The text of an instruction. -/
def Instr.text : Instr → String
  | push src => "pushq " ++ src.text .quad
  | pop dst => "popq " ++ dst.name .quad
  | mov width src dst => "mov" ++ width.letter ++ " " ++ src.text width ++ ", " ++ dst.text width
  | movSigned src dst => "movslq " ++ src.text .long ++ ", " ++ dst.name .quad
  | movZero src dst => "movzbq " ++ src.text .byte ++ ", " ++ dst.name .quad
  | lea src dst => "leaq " ++ src.text .quad ++ ", " ++ dst.name .quad
  | alu op width src dst => op.name ++ width.letter ++ " " ++ src.text width ++ ", " ++ dst.name width
  | neg dst => "negq " ++ dst.name .quad
  | signExtend => "cqo"
  | idiv src => "idivq " ++ src.name .quad
  | flip bit dst => "btcq $" ++ toString bit ++ ", " ++ dst.name .quad
  | set condition dst => "set" ++ condition.letters ++ " " ++ dst.name .byte
  | toReal src dst => "movq " ++ src.name .quad ++ ", " ++ dst.name
  | ofReal src dst => "movq " ++ src.name ++ ", " ++ dst.name .quad
  | convert src dst => "cvtsi2sdq " ++ src.name .quad ++ ", " ++ dst.name
  | real op src dst => op.name ++ " " ++ src.name ++ ", " ++ dst.name
  | compareReal src dst => "ucomisd " ++ src.name ++ ", " ++ dst.name
  | jump target => "jmp " ++ target.name
  | jumpEqual target => "je " ++ target.name
  | call function => "call " ++ function
  | leave => "leave"
  | ret => "ret"

/-- The text of a line without its end. -/
def Line.text : Line → String
  | textSection => "    .text"
  | dataSection => "    .section .rodata"
  | global function => "    .globl " ++ function
  | entry function => function ++ ":"
  | label l => l.name ++ ":"
  | instr i => "    " ++ i.text
  | string text => "    .string " ++ quote text
  | double text => "    .double " ++ text
  | quad text => "    .quad " ++ text
  | blank => ""

/-- The text of a listing. -/
def Listing.render (listing : Listing) : String := String.join (listing.map fun line => line.text ++ "\n")

end Arvore.Assembly
