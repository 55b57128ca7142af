import Arvore.Assembly.Label

/-!
# Assembly

The part of x86-64 that programs are compiled to, as data. Instructions name their source before their destination.
-/

namespace Arvore.Assembly

/-- General registers. -/
inductive Register where
  | rax
  | rcx
  | rdx
  | rsi
  | rdi
  | r8
  | r9
  | rsp
  | rbp
  deriving DecidableEq, Repr

/-- Registers for reals. -/
inductive RealRegister where
  | xmm0
  | xmm1
  deriving DecidableEq, Repr

/-- How many bytes an instruction moves or combines. -/
inductive Width where
  | byte
  | long
  | quad
  deriving DecidableEq, Repr

/-- The number of bytes. -/
def Width.bytes : Width → Nat
  | byte => 1
  | long => 4
  | quad => 8

/-- What an instruction works on. -/
inductive Operand where
  | imm (value : Int)
  | reg (r : Register)
  /-- memory so many bytes from the address in a register -/
  | mem (base : Register) (offset : Int)
  /-- memory at a label -/
  | data (label : Label)
  deriving DecidableEq, Repr

/-- Operations that combine a source with a register. -/
inductive Alu where
  | add
  | sub
  | imul
  | and
  | or
  | xor
  | cmp
  deriving DecidableEq, Repr

/-- Operations on reals. -/
inductive RealOp where
  | add
  | sub
  | mul
  | div
  deriving DecidableEq, Repr

/-- Conditions of the last comparison. -/
inductive Condition where
  | equal
  | notEqual
  | less
  | lessEqual
  | greater
  | greaterEqual
  | above
  | aboveEqual
  | parity
  | noParity
  deriving DecidableEq, Repr

/-- Instructions. -/
inductive Instr where
  | push (src : Operand)
  | pop (dst : Register)
  | mov (width : Width) (src dst : Operand)
  /-- four bytes, filled up with the sign -/
  | movSigned (src : Operand) (dst : Register)
  /-- one byte, filled up with zeros -/
  | movZero (src : Operand) (dst : Register)
  /-- the address of memory -/
  | lea (src : Operand) (dst : Register)
  | alu (op : Alu) (width : Width) (src : Operand) (dst : Register)
  | neg (dst : Register)
  /-- fills the register of the dividend up with the sign -/
  | signExtend
  | idiv (src : Register)
  /-- flips one bit -/
  | flip (bit : Nat) (dst : Register)
  /-- sets a byte to one if the condition holds, else to zero -/
  | set (condition : Condition) (dst : Register)
  | toReal (src : Register) (dst : RealRegister)
  | ofReal (src : RealRegister) (dst : Register)
  /-- the real with the value of an integer -/
  | convert (src : Register) (dst : RealRegister)
  | real (op : RealOp) (src dst : RealRegister)
  | compareReal (src dst : RealRegister)
  | jump (target : Label)
  | jumpEqual (target : Label)
  | call (function : String)
  | leave
  | ret
  deriving DecidableEq, Repr

/-- Lines of a listing. -/
inductive Line where
  /-- the start of the code -/
  | textSection
  /-- the start of the read-only data -/
  | dataSection
  | global (function : String)
  | entry (function : String)
  | label (label : Label)
  | instr (instr : Instr)
  | string (text : String)
  | double (text : String)
  | quad (text : String)
  | blank
  deriving DecidableEq, Repr

/-- Lines in the order they are written. -/
abbrev Listing := List Line

/-- The lines of some instructions. -/
def instrs (code : List Instr) : Listing := code.map .instr

end Arvore.Assembly
