/-
  `arm-next-pc`: where a thread goes after the instruction at its program counter.

  The caller passes the registers with the architectural program counter (the instruction's address
  plus 4 in Thumb state, plus 8 in ARM state).  `nextPc` fetches four bytes at the instruction's
  address, decodes them, and answers an address with the instruction set to be in there.

  The decoder is a parameter: state and bytes to an instruction or a decode error.  Memory is what a
  `MemReader` can read: the mapped bytes.  An `unreachable!()` of the source is `panic`.  The
  source's one `match insn.opcode` is `taken`, the answer of the instruction once its condition
  holds.
-/
import VitaGdb.ArmNextPc.Insn

namespace VitaGdb.ArmNextPc

/-- The decoder's error, as far as the program can tell. -/
structure DecodeError where
  deriving DecidableEq, Repr

inductive NextPcError where
  | memoryRead
  | decodeError (e : DecodeError)
  deriving DecidableEq, Repr

/-- `InstDecoder::default_thumb()` or `InstDecoder::default()` on the fetched bytes. -/
abbrev InstDecoder := Bool → List U8 → Except DecodeError Instruction

/-- An answer of `next_pc`: the address, and whether execution goes on in Thumb state. -/
abbrev Target := U32 × Bool

/-! ## Memory -/

/-- `from_le_bytes`. -/
def fromLeBytes (bytes : List U8) : U32 :=
  bytes.foldr (fun b acc => (acc <<< 8) ||| b.setWidth 32) 0#32

/-- `read_u8`, `read_u16`, `read_u32`: read `n` bytes and assemble them. -/
def readLe (mem : UserMem) (n : Nat) (addr : U32) : Outcome NextPcError U32 :=
  match ByteMem.read mem addr n with
  | none => .err .memoryRead
  | some bytes => .ok (fromLeBytes bytes)

def readU8 (mem : UserMem) (addr : U32) : Outcome NextPcError U32 := readLe mem 1 addr
def readU16 (mem : UserMem) (addr : U32) : Outcome NextPcError U32 := readLe mem 2 addr
def readU32 (mem : UserMem) (addr : U32) : Outcome NextPcError U32 := readLe mem 4 addr

/-! ## Operands -/

/-- `is_pc_destination`. -/
def isPcDestination : Operand → Bool
  | .reg r => r.val = 15
  | _ => false

/-- `value_of`. -/
def valueOf (operand : Operand) (regs : RegContext) : Outcome NextPcError U32 :=
  match operand with
  | .reg r => .ok (regs.reg r)
  | .imm12 value => .ok (value.setWidth 32)
  | .imm32 value => .ok value
  | _ => .panic

/-- `effective_address`. -/
def effectiveAddress (operand : Operand) (regs : RegContext) : Outcome NextPcError U32 :=
  match operand with
  | .regDeref base => .ok (regs.reg base)
  | .regDerefPreindexOffset base offset add _ =>
    if add then .ok (regs.reg base + offset.setWidth 32)
    else .ok (regs.reg base - offset.setWidth 32)
  | .regDerefPostindexOffset base _ _ _ => .ok (regs.reg base)
  | _ => .panic

/-- `table_branch_address`. -/
def tableBranchAddress (operands : Fin 4 → Operand) (regs : RegContext) :
    Outcome NextPcError (U32 × U32) :=
  match operands 0, operands 1 with
  | .reg base, .reg index => .ok (regs.reg base, regs.reg index)
  | .regDerefPreindexReg base index _ _, .nothing => .ok (regs.reg base, regs.reg index)
  | _, _ => .panic

/-- `eval_alu`. -/
def evalAlu (opcode : Opcode) (operands : Fin 4 → Operand) (regs : RegContext) :
    Outcome NextPcError U32 := do
  let first ← valueOf (operands 1) regs
  let carry : U32 := if regs.condFlags.2.2.1 then 1#32 else 0#32
  match opcode with
  | .MOV | .ADR => return first
  | .MVN => return ~~~first
  | .RRX => return (first >>> 1) ||| (carry <<< 31)
  | _ =>
    let second ← valueOf (operands 2) regs
    let shift := second &&& 0xFF#32
    match opcode with
    | .ADD => return first + second
    | .ADC => return first + second + carry
    | .SUB => return first - second
    | .RSB => return second - first
    | .SBC => return first - second - (1#32 - carry)
    | .RSC => return second - first - (1#32 - carry)
    | .AND => return first &&& second
    | .EOR => return first ^^^ second
    | .ORR => return first ||| second
    | .BIC => return first &&& ~~~second
    | .LSL => return if shift ≤ 31#32 then first <<< shift else 0#32
    | .LSR => return if shift ≤ 31#32 then first >>> shift else 0#32
    | .ASR =>
      return if shift ≤ 31#32 then first.sshiftRight shift.toNat
        else if first &&& (1#32 <<< 31) != 0#32 then 0xFFFFFFFF#32 else 0#32
    | .ROR => return first.rotateRight (shift &&& 31#32).toNat
    | _ => .panic

/-! ## The instruction's own answer -/

/-- `thumb_branch_target`. -/
def thumbBranchTarget (condition : ConditionCode) (offset : I32) (regs : RegContext) : U32 :=
  let base := if condition = .AL then regs.pc + 4#32 else regs.pc - 4#32
  base + (offset <<< 1)

/-- A register, a loaded word or an immediate as a branch target: bit 0 is the instruction set. -/
def interwork (value : U32) : Target := (value &&& ~~~1#32, value &&& 1#32 == 1#32)

/-- `count_ones`. -/
def countOnes (list : U16) : U32 := BitVec.ofNat 32 ((List.range 16).countP fun i => list.getLsbD i)

/-- Where `LDM`/`POP` finds the program counter it loads. -/
def pcSlot (opcode : Opcode) (baseAddr : U32) (list : U16) : Outcome NextPcError U32 :=
  let beforePc := countOnes (list &&& 0x7FFF#16)
  let totalRegs := countOnes list
  match opcode with
  | .LDM true false _ _ | .POP => .ok (baseAddr + beforePc * 4#32)
  | .LDM true true _ _ => .ok (baseAddr + (beforePc + 1#32) * 4#32)
  | .LDM false false _ _ => .ok (baseAddr - (totalRegs - 1#32 - beforePc) * 4#32)
  | .LDM false true _ _ => .ok (baseAddr - (totalRegs - beforePc) * 4#32)
  | _ => .panic

/-- The base register and the register list of `LDM`/`POP`. -/
def baseAndList (insn : Instruction) : Outcome NextPcError (Reg × U16) :=
  match insn.operands 0, insn.operands 1 with
  | .reg b, .regList l => .ok (b, l)
  | .regWBack b _, .regList l => .ok (b, l)
  | _, .regList l => if insn.opcode = .POP then .ok (13, l) else .panic
  | _, _ => .panic

/-- `match insn.opcode`: where the instruction goes once its condition holds. -/
def taken (insn : Instruction) (fallthrough : Target) (regs : RegContext) (mem : UserMem) :
    Outcome NextPcError Target :=
  match insn.opcode with
  | .B | .BL =>
    match insn.operands 0 with
    | .branchOffset offset => .ok (regs.pc + ((offset - 2#32) <<< 2), false)
    | .branchThumbOffset offset => .ok (thumbBranchTarget insn.condition offset regs, true)
    | _ => .panic
  | .BLX =>
    match insn.operands 0 with
    | .branchOffset offset => .ok (regs.pc + (offset <<< 2), true)
    | .branchThumbOffset offset => .ok (regs.pc + (offset <<< 1), false)
    | .reg reg => .ok (interwork (regs.reg reg))
    | _ => .panic
  | .BX | .BXJ =>
    match insn.operands 0 with
    | .reg reg => .ok (interwork (regs.reg reg))
    | _ => .panic
  | .CBZ =>
    match insn.operands 0, insn.operands 1 with
    | .reg reg, .imm32 imm =>
      if regs.reg reg = 0#32 then .ok (interwork imm) else .ok fallthrough
    | _, _ => .panic
  | .CBNZ =>
    match insn.operands 0, insn.operands 1 with
    | .reg reg, .imm32 imm =>
      if regs.reg reg ≠ 0#32 then .ok (interwork imm) else .ok fallthrough
    | _, _ => .panic
  | .AND | .EOR | .SUB | .RSB | .ADD | .ADC | .SBC | .RSC | .ORR | .MOV | .BIC | .MVN
  | .LSL | .LSR | .ASR | .RRX | .ROR | .ADR =>
    if isPcDestination (insn.operands 0) then do
      let target ← evalAlu insn.opcode insn.operands regs
      return (target &&& ~~~3#32, insn.thumb)
    else .ok fallthrough
  | .LDR | .LDRT =>
    if isPcDestination (insn.operands 0) then do
      let address ← effectiveAddress (insn.operands 1) regs
      let target ← readU32 mem address
      return interwork target
    else .ok fallthrough
  | .LDM _ _ _ _ | .POP => do
    let (baseReg, list) ← baseAndList insn
    if list &&& (1#16 <<< 15) = 0#16 then return fallthrough
    else
      let pcAddr ← pcSlot insn.opcode (regs.reg baseReg) list
      let target ← readU32 mem pcAddr
      return interwork target
  | .TBB => do
    let (baseVal, indexVal) ← tableBranchAddress insn.operands regs
    let offset ← readU8 mem (baseVal + indexVal)
    return (regs.pc + (offset <<< 1), insn.thumb)
  | .TBH => do
    let (baseVal, indexVal) ← tableBranchAddress insn.operands regs
    let offset ← readU16 mem (baseVal + (indexVal <<< 2))
    return (regs.pc + (offset <<< 1), insn.thumb)
  | .other => .ok fallthrough

/-! ## The arms that read data memory -/

/-- A load into the program counter. -/
theorem taken_load {insn : Instruction} (hop : insn.opcode = .LDR ∨ insn.opcode = .LDRT)
    (hpc : isPcDestination (insn.operands 0) = true) (next : Target) (regs : RegContext)
    (mem : UserMem) :
    taken insn next regs mem =
      effectiveAddress (insn.operands 1) regs >>= fun address =>
        readU32 mem address >>= fun target => .ok (interwork target) := by
  unfold taken
  obtain hop | hop := hop
  · simp only [hop, hpc, if_true]
    rfl
  · simp only [hop, hpc, if_true]
    rfl

/-- A load into another register. -/
theorem taken_load_other {insn : Instruction} (hop : insn.opcode = .LDR ∨ insn.opcode = .LDRT)
    (hpc : isPcDestination (insn.operands 0) = false) (next : Target) (regs : RegContext)
    (mem : UserMem) : taken insn next regs mem = .ok next := by
  unfold taken
  obtain hop | hop := hop
  · simp only [hop, hpc, Bool.false_eq_true, if_false]
  · simp only [hop, hpc, Bool.false_eq_true, if_false]

/-- The opcode loads a register list. -/
def IsLoadMultiple (opcode : Opcode) : Prop :=
  (∃ add pre wback usermode, opcode = .LDM add pre wback usermode) ∨ opcode = .POP

/-- The load-multiple opcodes have a slot for the program counter. -/
theorem pcSlot_ok {opcode : Opcode} (hop : IsLoadMultiple opcode) (baseAddr : U32) (list : U16) :
    ∃ addr, pcSlot opcode baseAddr list = .ok addr := by
  obtain ⟨add, pre, wback, usermode, rfl⟩ | rfl := hop
  · cases add <;> cases pre <;> exact ⟨_, rfl⟩
  · exact ⟨_, rfl⟩

/-- A load of a register list. -/
theorem taken_loadMultiple {insn : Instruction} (hop : IsLoadMultiple insn.opcode) {base : Reg}
    {list : U16} (hlist : baseAndList insn = .ok (base, list)) (next : Target) (regs : RegContext)
    (mem : UserMem) :
    taken insn next regs mem =
      if list &&& (1#16 <<< 15) = 0#16 then .ok next
      else pcSlot insn.opcode (regs.reg base) list >>= fun pcAddr =>
        readU32 mem pcAddr >>= fun target => .ok (interwork target) := by
  unfold taken
  obtain ⟨add, pre, wback, usermode, hop⟩ | hop := hop
  · simp only [hop, hlist, Outcome.ok_bind]
    rfl
  · simp only [hop, hlist, Outcome.ok_bind]
    rfl

/-- The registers of the decoder's table branches. -/
theorem tableBranchAddress_ok {operands : Fin 4 → Operand} {base index : Reg}
    (h : (operands 0 = .reg base ∧ operands 1 = .reg index) ∨
      ∃ add wback, operands 0 = .regDerefPreindexReg base index add wback ∧
        operands 1 = .nothing)
    (regs : RegContext) :
    tableBranchAddress operands regs = .ok (regs.reg base, regs.reg index) := by
  unfold tableBranchAddress
  obtain ⟨h0, h1⟩ | ⟨add, wback, h0, h1⟩ := h
  · rw [h0, h1]
  · rw [h0, h1]

/-- A table branch by bytes. -/
theorem taken_TBB {insn : Instruction} (hop : insn.opcode = .TBB) {base index : U32}
    {regs : RegContext} (htable : tableBranchAddress insn.operands regs = .ok (base, index))
    (next : Target) (mem : UserMem) :
    taken insn next regs mem =
      readU8 mem (base + index) >>= fun offset => .ok (regs.pc + (offset <<< 1), insn.thumb) := by
  unfold taken
  simp only [hop, htable, Outcome.ok_bind]
  rfl

/-- A table branch by halfwords. -/
theorem taken_TBH {insn : Instruction} (hop : insn.opcode = .TBH) {base index : U32}
    {regs : RegContext} (htable : tableBranchAddress insn.operands regs = .ok (base, index))
    (next : Target) (mem : UserMem) :
    taken insn next regs mem =
      readU16 mem (base + (index <<< 2)) >>= fun offset =>
        .ok (regs.pc + (offset <<< 1), insn.thumb) := by
  unfold taken
  simp only [hop, htable, Outcome.ok_bind]
  rfl

/-! ## `next_pc` -/

/-- The address of the instruction. -/
def insnAddr (regs : RegContext) : U32 := if regs.thumb then regs.pc - 4#32 else regs.pc - 8#32

/-- The instruction after this one. -/
def fallthroughOf (insn : Instruction) (addr : U32) : Target :=
  (addr + (if insn.thumb && !insn.wide then 2#32 else 4#32), insn.thumb)

/-- `next_pc`. -/
def nextPc (decoder : InstDecoder) (regs : RegContext) (mem : UserMem) :
    Outcome NextPcError Target :=
  let addr := insnAddr regs
  match ByteMem.read mem addr 4 with
  | none => .err .memoryRead
  | some bytes =>
    match decoder regs.thumb bytes with
    | .error e => .err (.decodeError e)
    | .ok insn =>
      if !evalCond insn.condition regs then .ok (fallthroughOf insn addr)
      else taken insn (fallthroughOf insn addr) regs mem

/-- Once the bytes are read and decoded, `nextPc` is the condition and the instruction's answer. -/
theorem nextPc_decoded {decoder : InstDecoder} {regs : RegContext} {mem : UserMem} {bytes : List U8}
    {insn : Instruction} (hread : ByteMem.read mem (insnAddr regs) 4 = some bytes)
    (hdecode : decoder regs.thumb bytes = .ok insn) :
    nextPc decoder regs mem =
      if !evalCond insn.condition regs then .ok (fallthroughOf insn (insnAddr regs))
      else taken insn (fallthroughOf insn (insnAddr regs)) regs mem := by
  simp only [nextPc, hread, hdecode]

/-- The instruction's answer, where its condition holds. -/
theorem nextPc_taken {decoder : InstDecoder} {regs : RegContext} {mem : UserMem} {bytes : List U8}
    {insn : Instruction} (hread : ByteMem.read mem (insnAddr regs) 4 = some bytes)
    (hdecode : decoder regs.thumb bytes = .ok insn)
    (hcond : evalCond insn.condition regs = true) :
    nextPc decoder regs mem = taken insn (fallthroughOf insn (insnAddr regs)) regs mem := by
  rw [nextPc_decoded hread hdecode, hcond]
  rfl

/-- The crate's test `arm_b_forward`: `b #0x100` at 0x1000, decoded as 0x42 words. -/
example : taken ⟨.AL, .B, fun _ => .branchOffset 0x42#32, false, true⟩ (0x1004#32, false)
    ⟨fun _ => 0#32, 0#32, 0#32, 0x1008#32, 0#32⟩ (fun _ => none) = .ok (0x1108#32, false) := by
  decide

/-! ## Standing at one instruction -/

/-- A decoder that knows one instruction, by its bytes. -/
def knowing (encoding : List U8) (insn : Instruction) : InstDecoder := fun thumb bytes =>
  if thumb == insn.thumb && bytes.take encoding.length == encoding then .ok insn else .error {}

/-- A memory that holds the bytes at an address and zeros elsewhere. -/
def textAt (addr : U32) (encoding : List U8) : UserMem :=
  ByteMem.write (fun _ => some 0#8) addr encoding

/-- The registers at an address, with the state, r0 and r1 as given. -/
def standingAt (addr : U32) (thumb : Bool) (r0 r1 : U32) : RegContext where
  r := fun i => if i = 0 then r0 else if i = 1 then r1 else 0#32
  sp := 0#32
  lr := 0#32
  pc := if thumb then addr + 4#32 else addr + 8#32
  cpsr := if thumb then 1#32 <<< 5 else 0#32

end VitaGdb.ArmNextPc
