import Mathlib
import Arvore.Assembly.Basic
import Arvore.Proofs.Machine.Memory

/-!
# The machine

The meaning of the instructions that code for integers and truth values is made of: registers of 64 bits, memory by
bytes, the flags of the last operation. An instruction that the machine has no answer for is stuck: a division that
does not fit, a condition on flags that are not defined, a jump to a label that is nowhere. Instructions on reals are
left out, and stuck. An immediate operand or a distance counts modulo the size of a word.

A listing is run line by line. Labels and the marks of functions do nothing by themselves; a jump goes on at the first
line with its label. A return address is the number of a line.
-/

namespace Arvore.Machine

open Assembly

/-- What the last operation left behind for conditions. -/
structure Flags where
  zero : Bool
  sign : Bool
  overflow : Bool
  carry : Bool

/-- Registers, memory and flags; no flags if the last operation leaves them undefined. -/
structure State where
  regs : Register → Word
  mem : Memory
  flags : Option Flags := none

/-- Code in memory: its lines, and the addresses of the data that its labels stand for. -/
structure Image where
  code : Listing
  data : Label → Word

namespace Flags

/-- The flags of a result for which only zero and sign count. -/
def ofResult (r : Word) : Flags := ⟨r == 0, r.msb, false, false⟩

/-- The flags of a sum. -/
def ofAdd (a b : Word) : Flags := ⟨a + b == 0, (a + b).msb, a.saddOverflow b, a.uaddOverflow b⟩

/-- The flags of a difference, which are also those of a comparison. -/
def ofSub (a b : Word) : Flags := ⟨a - b == 0, (a - b).msb, a.ssubOverflow b, a.usubOverflow b⟩

/-- Whether a condition holds. Parity is only asked for behind a comparison of reals. -/
def holds (f : Flags) : Condition → Option Bool
  | .equal => some f.zero
  | .notEqual => some !f.zero
  | .less => some (f.sign != f.overflow)
  | .lessEqual => some (f.zero || f.sign != f.overflow)
  | .greater => some (!f.zero && f.sign == f.overflow)
  | .greaterEqual => some (f.sign == f.overflow)
  | .above => some (!f.carry && !f.zero)
  | .aboveEqual => some !f.carry
  | .parity | .noParity => none

end Flags

namespace State

/-- The state with another value in a register. -/
def set (s : State) (r : Register) (v : Word) : State := { s with regs := Function.update s.regs r v }

/-- The state with a word on top of the stack. -/
def push (s : State) (v : Word) : State :=
  { s with regs := Function.update s.regs .rsp (s.regs .rsp - 8), mem := s.mem.write (s.regs .rsp - 8) 8 v.toNat }

/-- The word on top of the stack. -/
def top (s : State) : Word := BitVec.ofNat 64 (s.mem.read (s.regs .rsp) 8)

/-- The state without the word on top of the stack. -/
def drop (s : State) : State := s.set .rsp (s.regs .rsp + 8)

/-- The address of an operand in memory. -/
def address? (img : Image) (s : State) : Operand → Option Word
  | .mem base offset => some (s.regs base + BitVec.ofInt 64 offset)
  | .data label => some (img.data label)
  | .imm _ | .reg _ => none

/-- The lowest bytes of an operand. -/
def value? (img : Image) (s : State) (w : Width) : Operand → Option Nat
  | .imm v => some ((BitVec.ofInt 64 v).toNat % 256 ^ w.bytes)
  | .reg r => some ((s.regs r).toNat % 256 ^ w.bytes)
  | place => (s.address? img place).map fun a => s.mem.read a w.bytes

/-- The word whose lowest bytes are replaced. Four bytes clear what is above them. -/
def merge (w : Width) (old : Word) (v : Nat) : Word :=
  match w with
  | .byte => BitVec.ofNat 64 (old.toNat - old.toNat % 256 + v % 256)
  | .long | .quad => BitVec.ofNat 64 v

/-- Writes the lowest bytes of a register or of memory. -/
def assign? (img : Image) (s : State) (w : Width) (v : Nat) : Operand → Option State
  | .reg r => some (s.set r (merge w (s.regs r) v))
  | .imm _ => none
  | place => (s.address? img place).map fun a => { s with mem := s.mem.write a w.bytes v }

end State

/-- Whether an operand is in memory. No instruction has two operands there. -/
def inMemory : Operand → Bool
  | .mem .. | .data _ => true
  | .imm _ | .reg _ => false

/-- Combines a source with a register. A comparison changes flags only. -/
def combine (op : Alu) (src : Word) (dst : Register) (s : State) : State :=
  let old := s.regs dst
  match op with
  | .add => { s.set dst (old + src) with flags := some (.ofAdd old src) }
  | .sub => { s.set dst (old - src) with flags := some (.ofSub old src) }
  | .imul => { s.set dst (old * src) with flags := none }
  | .and => { s.set dst (old &&& src) with flags := some (.ofResult (old &&& src)) }
  | .or => { s.set dst (old ||| src) with flags := some (.ofResult (old ||| src)) }
  | .xor => { s.set dst (old ^^^ src) with flags := some (.ofResult (old ^^^ src)) }
  | .cmp => { s with flags := some (.ofSub old src) }

/-- The quotient and the remainder of the double word in `%rdx` and `%rax`, if there is a quotient of one word. -/
def divide? (high low divisor : Word) : Option (Word × Word) :=
  let dividend : Int := high.toInt * 18446744073709551616 + low.toNat
  let quotient := dividend.tdiv divisor.toInt
  if divisor = 0 || quotient < -9223372036854775808 || 9223372036854775808 ≤ quotient then none
  else some (BitVec.ofInt 64 quotient, BitVec.ofInt 64 (dividend.tmod divisor.toInt))

/-- What an instruction does that goes on to the next line. -/
def act (img : Image) (s : State) : Instr → Option State
  | .push src => (s.value? img .quad src).map fun v => s.push (BitVec.ofNat 64 v)
  | .pop dst => some (s.drop.set dst s.top)
  | .mov w src dst => if inMemory src && inMemory dst then none else (s.value? img w src).bind (s.assign? img w · dst)
  | .movSigned src dst => (s.value? img .long src).map fun v => s.set dst ((BitVec.ofNat 32 v).signExtend 64)
  | .movZero src dst => (s.value? img .byte src).map fun v => s.set dst (BitVec.ofNat 64 v)
  | .lea src dst => (s.address? img src).map (s.set dst)
  | .alu op .quad src dst => (s.value? img .quad src).map fun v => combine op (BitVec.ofNat 64 v) dst s
  | .neg dst => some { s.set dst (-s.regs dst) with flags := some (.ofSub 0 (s.regs dst)) }
  | .signExtend => some (s.set .rdx (if (s.regs .rax).msb then -1 else 0))
  | .idiv src =>
    (divide? (s.regs .rdx) (s.regs .rax) (s.regs src)).map fun (q, r) =>
      { (s.set .rax q).set .rdx r with flags := none }
  | .flip bit dst => some { s.set dst (s.regs dst ^^^ BitVec.twoPow 64 bit) with flags := none }
  | .set c dst => do
    let holds ← (← s.flags).holds c
    return s.set dst (State.merge .byte (s.regs dst) holds.toNat)
  | .leave => some (({ s with regs := Function.update s.regs .rsp (s.regs .rbp) } : State).drop.set .rbp
      (BitVec.ofNat 64 (s.mem.read (s.regs .rbp) 8)))
  | _ => none

/-- Where a run has come to: the number of the line that is next, and the state. -/
structure Config where
  line : Nat
  state : State

/-- Goes on at the first of some lines. -/
def goto (img : Image) (s : State) (target : Line) : Option Config := (img.code.idxOf? target).map (⟨·, s⟩)

/-- What one line does. -/
def step (img : Image) (c : Config) : Option Config :=
  match img.code[c.line]? with
  | some (.instr (.jump l)) => goto img c.state (.label l)
  | some (.instr (.jumpEqual l)) =>
    c.state.flags.bind fun f => if f.zero then goto img c.state (.label l) else some ⟨c.line + 1, c.state⟩
  | some (.instr (.call f)) => goto img (c.state.push (BitVec.ofNat 64 (c.line + 1))) (.entry f)
  | some (.instr .ret) => some ⟨c.state.top.toNat, c.state.drop⟩
  | some (.instr i) => (act img c.state i).map (⟨c.line + 1, ·⟩)
  | some (.label _) | some (.entry _) | some (.global _) | some .blank => some ⟨c.line + 1, c.state⟩
  | _ => none

/-- A run of any number of lines. -/
def Runs (img : Image) : Config → Config → Prop := Relation.ReflTransGen fun c c' => step img c = some c'

end Arvore.Machine
