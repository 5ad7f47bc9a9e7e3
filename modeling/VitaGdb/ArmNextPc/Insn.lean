/-
  Decoded ARMv7 instructions, as `next_pc` sees them, and the register context it runs on.

  The decoder is a third-party crate; what it hands over is a condition, an opcode, four operands
  and two flags (`thumb`: decoded in Thumb state, `wide`: four bytes long).  `Opcode` and
  `Operand` list the constructors `next_pc` tells apart, with the shifted and register-offset
  operands it does not handle, and keep `other` for all the rest.  A
  register of a decoded instruction is one of sixteen (the crate's own constructor refuses more),
  so the sixteen cases of `RegContext.reg` are all there are.
-/
import VitaGdb.Kernel.Basic

namespace VitaGdb.ArmNextPc

/-- `Reg`: r0 to r15. -/
abbrev Reg := Fin 16

inductive ConditionCode where
  | EQ | NE | HS | LO | MI | PL | VS | VC | HI | LS | GE | LT | GT | LE | AL
  deriving DecidableEq, Repr

inductive Opcode where
  | B | BL | BLX | BX | BXJ | CBZ | CBNZ
  | AND | EOR | SUB | RSB | ADD | ADC | SBC | RSC | ORR | MOV | BIC | MVN
  | LSL | LSR | ASR | RRX | ROR | ADR
  | LDR | LDRT
  | LDM (add pre wback usermode : Bool)
  | POP | TBB | TBH
  | other
  deriving DecidableEq, Repr

inductive ShiftStyle where
  | LSL | LSR | ASR | ROR
  deriving DecidableEq, Repr

/-- `RegShift`, unpacked: a register shifted by an immediate or by a register; `next_pc` never opens
    one. -/
inductive RegShift where
  | regImm (shiftee : Reg) (stype : ShiftStyle) (imm : U8)
  | regReg (shiftee : Reg) (stype : ShiftStyle) (shifter : Reg)
  deriving DecidableEq, Repr

inductive Operand where
  | reg (r : Reg)
  | regWBack (r : Reg) (wback : Bool)
  | regList (list : U16)
  | imm12 (value : U16)
  | imm32 (value : U32)
  | branchOffset (offset : I32)
  | branchThumbOffset (offset : I32)
  | regDeref (base : Reg)
  | regDerefPreindexOffset (base : Reg) (offset : U16) (add wback : Bool)
  | regDerefPostindexOffset (base : Reg) (offset : U16) (add wback : Bool)
  | regDerefPreindexReg (base index : Reg) (add wback : Bool)
  | regShift (shift : RegShift)
  | regDerefPostindexReg (base index : Reg) (add wback : Bool)
  | regDerefPreindexRegShift (base : Reg) (shift : RegShift) (add wback : Bool)
  | regDerefPostindexRegShift (base : Reg) (shift : RegShift) (add wback : Bool)
  | nothing
  | other
  deriving DecidableEq, Repr

/-- `Instruction`: `operands[4]`, the condition and the two width flags. -/
structure Instruction where
  condition : ConditionCode
  opcode : Opcode
  operands : Fin 4 → Operand
  thumb : Bool
  wide : Bool

structure RegContext where
  r : Fin 13 → U32
  sp : U32
  lr : U32
  pc : U32
  cpsr : U32

namespace RegContext

/-- `RegContext::thumb`: CPSR bit 5. -/
def thumb (regs : RegContext) : Bool := (regs.cpsr >>> 5) &&& 1#32 != 0#32

/-- `RegContext::reg`. -/
def reg (regs : RegContext) (reg : Reg) : U32 :=
  if h : reg.val < 13 then regs.r ⟨reg.val, h⟩
  else if reg.val = 13 then regs.sp
  else if reg.val = 14 then regs.lr
  else regs.pc

/-- `cond_flags`: N, Z, C, V. -/
def condFlags (regs : RegContext) : Bool × Bool × Bool × Bool :=
  (regs.cpsr &&& (1#32 <<< 31) != 0#32, regs.cpsr &&& (1#32 <<< 30) != 0#32,
    regs.cpsr &&& (1#32 <<< 29) != 0#32, regs.cpsr &&& (1#32 <<< 28) != 0#32)

/-- The same registers with another program counter. -/
def withPc (regs : RegContext) (pc : U32) : RegContext := { regs with pc := pc }

@[simp] theorem withPc_pc (regs : RegContext) (pc : U32) : (regs.withPc pc).pc = pc := rfl
@[simp] theorem withPc_cpsr (regs : RegContext) (pc : U32) :
    (regs.withPc pc).cpsr = regs.cpsr := rfl
@[simp] theorem withPc_thumb (regs : RegContext) (pc : U32) :
    (regs.withPc pc).thumb = regs.thumb := rfl
@[simp] theorem withPc_condFlags (regs : RegContext) (pc : U32) :
    (regs.withPc pc).condFlags = regs.condFlags := rfl

/-- Only r15 reads the program counter. -/
theorem withPc_reg (regs : RegContext) (pc : U32) {reg : Reg} (h : reg.val < 15) :
    (regs.withPc pc).reg reg = regs.reg reg := by
  have hne : reg.val ≠ 15 := Nat.ne_of_lt h
  rw [RegContext.reg, RegContext.reg]
  split
  · rfl
  · split
    · rfl
    · rw [if_pos (by omega), if_pos (by omega)]
      rfl

end RegContext

/-- `eval_cond`. -/
def evalCond (cond : ConditionCode) (regs : RegContext) : Bool :=
  let (n, z, c, v) := regs.condFlags
  match cond with
  | .EQ => z
  | .NE => !z
  | .HS => c
  | .LO => !c
  | .MI => n
  | .PL => !n
  | .VS => v
  | .VC => !v
  | .HI => c && !z
  | .LS => !c || z
  | .GE => n == v
  | .LT => n != v
  | .GT => !z && n == v
  | .LE => z || n != v
  | .AL => true

@[simp] theorem evalCond_AL (regs : RegContext) : evalCond .AL regs = true := rfl

@[simp] theorem evalCond_withPc (cond : ConditionCode) (regs : RegContext) (pc : U32) :
    evalCond cond (regs.withPc pc) = evalCond cond regs := rfl

end VitaGdb.ArmNextPc
