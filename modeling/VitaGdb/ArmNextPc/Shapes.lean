/-
  Which operands `next_pc` handles, and where it reaches an `unreachable!()`.

  `unhandledOperands` collects, opcode by opcode, the operand layouts no arm handles.  Some of them
  the decoder does attach to the opcode: a shifted last source, a load with a register offset, the
  two-operand `add pc, r0`, `POP` with its list first, `TBH` with its index shifted, `CBZ` and
  `CBNZ` with a Thumb offset.  An instruction panics exactly when its condition holds and its
  operands are unhandled, whatever the decoder hands over (`nextPc_ne_panic_iff`).

  `WithinShapes` promises less than any decoder keeps: the last source of a data-processing write to
  the program counter is a register, an immediate or a shifted register, the address of a load into
  it any dereference.  Within it the switch dispatch `add pc, pc, r0, lsl #2` panics
  (`nextPc_panics`).
-/
import VitaGdb.ArmNextPc.AluWrites

namespace VitaGdb.ArmNextPc

/-! ## Shapes -/

/-- A register or an immediate. -/
def isPlainSource : Operand → Bool
  | .reg _ | .imm12 _ | .imm32 _ => true
  | _ => false

/-- A register, shifted. -/
def isShiftedSource : Operand → Bool
  | .regShift _ => true
  | _ => false

/-- A dereference of a register, plus or minus at most an immediate. -/
def isPlainAddress : Operand → Bool
  | .regDeref _ | .regDerefPreindexOffset _ _ _ _ | .regDerefPostindexOffset _ _ _ _ => true
  | _ => false

/-- A dereference with a register offset, shifted or not. -/
def isIndexedAddress : Operand → Bool
  | .regDerefPreindexReg _ _ _ _ | .regDerefPostindexReg _ _ _ _
  | .regDerefPreindexRegShift _ _ _ _ | .regDerefPostindexRegShift _ _ _ _ => true
  | _ => false

/-- The last source of a data-processing instruction. -/
def lastSource (insn : Instruction) : Operand :=
  if isUnary insn.opcode || insn.operands 2 = .nothing then insn.operands 1 else insn.operands 2

/-- The last source of a data-processing write to the program counter, and the address of a load
    into it. -/
def WithinShapes (insn : Instruction) : Prop :=
  isPcDestination (insn.operands 0) = true →
    (isAluOpcode insn.opcode = true →
      isPlainSource (lastSource insn) = true ∨ isShiftedSource (lastSource insn) = true) ∧
    (insn.opcode = .LDR ∨ insn.opcode = .LDRT →
      isPlainAddress (insn.operands 1) = true ∨ isIndexedAddress (insn.operands 1) = true)

def isReg : Operand → Bool
  | .reg _ => true
  | _ => false

def isBranchOffset : Operand → Bool
  | .branchOffset _ | .branchThumbOffset _ => true
  | _ => false

/-- The base of a load-multiple. -/
def isListBase : Operand → Bool
  | .reg _ | .regWBack _ _ => true
  | _ => false

def isRegList : Operand → Bool
  | .regList _ => true
  | _ => false

def isImm32 : Operand → Bool
  | .imm32 _ => true
  | _ => false

/-- The operands of a table branch that `table_branch_address` takes apart. -/
def isTableForm : Operand → Operand → Bool
  | .reg _, .reg _ | .regDerefPreindexReg _ _ _ _, .nothing => true
  | _, _ => false

/-- The operands no arm handles. -/
def unhandledOperands (insn : Instruction) : Bool :=
  match insn.opcode with
  | .B | .BL => !isBranchOffset (insn.operands 0)
  | .BLX => !isBranchOffset (insn.operands 0) && !isReg (insn.operands 0)
  | .BX | .BXJ => !isReg (insn.operands 0)
  | .CBZ | .CBNZ => !isReg (insn.operands 0) || !isImm32 (insn.operands 1)
  | .AND | .EOR | .SUB | .RSB | .ADD | .ADC | .SBC | .RSC | .ORR | .MOV | .BIC | .MVN
  | .LSL | .LSR | .ASR | .RRX | .ROR | .ADR =>
    isPcDestination (insn.operands 0) &&
      (!isPlainSource (insn.operands 1) ||
        !isUnary insn.opcode && !isPlainSource (insn.operands 2))
  | .LDR | .LDRT => isPcDestination (insn.operands 0) && !isPlainAddress (insn.operands 1)
  | .LDM _ _ _ _ => !isListBase (insn.operands 0) || !isRegList (insn.operands 1)
  | .POP => !isRegList (insn.operands 1)
  | .TBB | .TBH => !isTableForm (insn.operands 0) (insn.operands 1)
  | .other => false

/-! ## The helpers -/

/-- `value_of` panics on anything but a register or an immediate. -/
theorem valueOf_eq_panic_iff (operand : Operand) (regs : RegContext) :
    valueOf operand regs = .panic ↔ isPlainSource operand = false := by
  cases operand <;> simp [valueOf, isPlainSource]

/-- A register or an immediate has a value. -/
theorem valueOf_of_isPlainSource {operand : Operand} (h : isPlainSource operand = true)
    (regs : RegContext) : ∃ x, valueOf operand regs = .ok x := by
  cases operand with
  | reg r => exact ⟨regs.reg r, rfl⟩
  | imm12 value => exact ⟨value.setWidth 32, rfl⟩
  | imm32 value => exact ⟨value, rfl⟩
  | _ => exact absurd h Bool.false_ne_true

/-- `effective_address` panics on anything but a register plus or minus an immediate. -/
theorem effectiveAddress_eq_panic_iff (operand : Operand) (regs : RegContext) :
    effectiveAddress operand regs = .panic ↔ isPlainAddress operand = false := by
  cases operand with
  | regDerefPreindexOffset base offset add wback =>
    cases add <;> simp [effectiveAddress, isPlainAddress]
  | _ => simp [effectiveAddress, isPlainAddress]

/-- Reading memory does not panic. -/
theorem readLe_ne_panic (mem : UserMem) (n : Nat) (addr : U32) : readLe mem n addr ≠ .panic := by
  unfold readLe
  split
  · exact nofun
  · exact nofun

/-- Nor does an answer from what was read. -/
theorem readThen_ne_panic (mem : UserMem) (n : Nat) (addr : U32) (answer : U32 → Target) :
    (readLe mem n addr >>= fun value => .ok (answer value)) ≠ .panic := by
  intro h
  obtain hread | ⟨_, _, hok⟩ := Outcome.bind_eq_panic_iff.mp h
  · exact readLe_ne_panic mem n addr hread
  · exact nomatch hok

/-- A list in the second operand is found, behind a base register or, for `POP`, without one. -/
theorem baseAndList_eq_panic_iff (insn : Instruction) :
    baseAndList insn = .panic ↔
      ¬ (isRegList (insn.operands 1) = true ∧
        (isListBase (insn.operands 0) = true ∨ insn.opcode = .POP)) := by
  unfold baseAndList
  cases insn.operands 1 with
  | regList list =>
    cases insn.operands 0 with
    | reg base => simp [isRegList, isListBase]
    | regWBack base wback => simp [isRegList, isListBase]
    | _ => by_cases hop : insn.opcode = .POP <;> simp [isRegList, isListBase, hop]
  | _ => cases insn.operands 0 <;> simp [isRegList]

/-- No error comes out of it. -/
theorem baseAndList_ok {insn : Instruction} (h : baseAndList insn ≠ .panic) :
    ∃ base list, baseAndList insn = .ok (base, list) := by
  cases hlist : baseAndList insn with
  | ok bl => exact ⟨bl.1, bl.2, rfl⟩
  | panic => exact absurd hlist h
  | err e =>
    unfold baseAndList at hlist
    split at hlist
    · exact nomatch hlist
    · exact nomatch hlist
    · split at hlist <;> exact nomatch hlist
    · exact nomatch hlist

/-- A table branch has its two registers, in one of the two forms. -/
theorem tableBranchAddress_eq_panic_iff (operands : Fin 4 → Operand) (regs : RegContext) :
    tableBranchAddress operands regs = .panic ↔ isTableForm (operands 0) (operands 1) = false := by
  unfold tableBranchAddress
  cases operands 0 with
  | reg base => cases operands 1 <;> simp [isTableForm]
  | regDerefPreindexReg base index add wback => cases operands 1 <;> simp [isTableForm]
  | _ => simp [isTableForm]

/-- `eval_alu` panics on a source it does not read. -/
theorem evalAlu_eq_panic_iff {opcode : Opcode} (halu : isAluOpcode opcode = true)
    (operands : Fin 4 → Operand) (regs : RegContext) :
    evalAlu opcode operands regs = .panic ↔
      isPlainSource (operands 1) = false ∨
        isUnary opcode = false ∧ isPlainSource (operands 2) = false := by
  unfold evalAlu
  rw [Outcome.bind_eq_panic_iff, valueOf_eq_panic_iff]
  cases hfirst : isPlainSource (operands 1) with
  | false => simp
  | true =>
    -- the first source has a value, and the second decides
    obtain ⟨x, hx⟩ := valueOf_of_isPlainSource hfirst regs
    rw [hx]
    unfold isAluOpcode at halu
    cases opcode with
    | MOV | MVN | RRX | ADR => simp [isUnary]
    | _ =>
      first
      | exact absurd halu Bool.false_ne_true
      | simp [isUnary, Outcome.bind_eq_panic_iff, valueOf_eq_panic_iff]

/-! ## Each arm -/

/-- The data-processing arm panics on a source it does not read. -/
theorem taken_alu_eq_panic_iff {insn : Instruction} (halu : isAluOpcode insn.opcode = true)
    (next : Target) (regs : RegContext) (mem : UserMem) :
    taken insn next regs mem = .panic ↔
      isPcDestination (insn.operands 0) = true ∧
        (isPlainSource (insn.operands 1) = false ∨
          isUnary insn.opcode = false ∧ isPlainSource (insn.operands 2) = false) := by
  cases hpc : isPcDestination (insn.operands 0) with
  | false =>
    rw [taken_alu_other halu hpc]
    simp
  | true =>
    rw [taken_alu halu hpc, Outcome.bind_eq_panic_iff, evalAlu_eq_panic_iff halu]
    simp

/-- The load arm panics on a register offset. -/
theorem taken_load_eq_panic_iff {insn : Instruction}
    (hop : insn.opcode = .LDR ∨ insn.opcode = .LDRT) (next : Target) (regs : RegContext)
    (mem : UserMem) :
    taken insn next regs mem = .panic ↔
      isPcDestination (insn.operands 0) = true ∧ isPlainAddress (insn.operands 1) = false := by
  cases hpc : isPcDestination (insn.operands 0) with
  | false =>
    rw [taken_load_other hop hpc]
    simp
  | true =>
    have hread : ∀ addr, (readU32 mem addr >>= fun target => .ok (interwork target)) ≠ .panic :=
      fun addr => readThen_ne_panic mem 4 addr interwork
    rw [taken_load hop hpc, Outcome.bind_eq_panic_iff, effectiveAddress_eq_panic_iff]
    simp [hread]

/-- The load-multiple arm panics where it finds no list. -/
theorem taken_loadMultiple_eq_panic_iff {insn : Instruction} (hop : IsLoadMultiple insn.opcode)
    (next : Target) (regs : RegContext) (mem : UserMem) :
    taken insn next regs mem = .panic ↔ baseAndList insn = .panic := by
  constructor
  · intro hpanic
    by_contra hfound
    obtain ⟨base, list, hlist⟩ := baseAndList_ok hfound
    obtain ⟨addr, haddr⟩ := pcSlot_ok hop (regs.reg base) list
    rw [taken_loadMultiple hop hlist, haddr, Outcome.ok_bind] at hpanic
    split at hpanic
    · exact nomatch hpanic
    · exact readThen_ne_panic mem 4 addr interwork hpanic
  · intro hnone
    unfold taken
    obtain ⟨add, pre, wback, usermode, hop⟩ | hop := hop
    · simp only [hop, hnone, Outcome.panic_bind]
    · simp only [hop, hnone, Outcome.panic_bind]

/-- The table-branch arms panic where they find no two registers. -/
theorem taken_table_eq_panic_iff {insn : Instruction}
    (hop : insn.opcode = .TBB ∨ insn.opcode = .TBH) (next : Target) (regs : RegContext)
    (mem : UserMem) :
    taken insn next regs mem = .panic ↔ tableBranchAddress insn.operands regs = .panic := by
  cases htable : tableBranchAddress insn.operands regs with
  | ok pair =>
    obtain ⟨base, index⟩ := pair
    obtain hop | hop := hop
    · rw [taken_TBB hop htable]
      exact iff_of_false (readThen_ne_panic mem 1 _ _) nofun
    · rw [taken_TBH hop htable]
      exact iff_of_false (readThen_ne_panic mem 2 _ _) nofun
  | panic =>
    unfold taken
    obtain hop | hop := hop
    · simp only [hop, htable, Outcome.panic_bind]
    · simp only [hop, htable, Outcome.panic_bind]
  | err e =>
    unfold tableBranchAddress at htable
    split at htable <;> exact nomatch htable

/-! ## `next_pc` -/

/-- **An instruction panics** exactly on operands no arm handles. -/
theorem taken_eq_panic_iff (insn : Instruction) (next : Target) (regs : RegContext)
    (mem : UserMem) :
    taken insn next regs mem = .panic ↔ unhandledOperands insn = true := by
  cases hop : insn.opcode with
  | B | BL | BLX =>
    -- the arms match on the first operand alone
    cases h0 : insn.operands 0 <;>
      simp [taken, unhandledOperands, isBranchOffset, isReg, hop, h0]
  | BX | BXJ =>
    cases h0 : insn.operands 0 <;> simp [taken, unhandledOperands, isReg, hop, h0]
  | CBZ | CBNZ =>
    cases h0 : insn.operands 0 with
    | reg r =>
      cases h1 : insn.operands 1 with
      | imm32 imm =>
        simp only [taken, unhandledOperands, isReg, isImm32, hop, h0, h1]
        split <;> simp
      | _ => simp [taken, unhandledOperands, isReg, isImm32, hop, h0, h1]
    | _ => simp [taken, unhandledOperands, isReg, hop, h0]
  | AND | EOR | SUB | RSB | ADD | ADC | SBC | RSC | ORR | MOV | BIC | MVN | LSL | LSR | ASR | RRX
  | ROR | ADR =>
    rw [taken_alu_eq_panic_iff (by rw [hop]; rfl)]
    simp [unhandledOperands, hop]
  | LDR | LDRT =>
    rw [taken_load_eq_panic_iff (by simp [hop])]
    simp [unhandledOperands, hop]
  | LDM add pre wback usermode =>
    rw [taken_loadMultiple_eq_panic_iff (.inl ⟨add, pre, wback, usermode, hop⟩),
      baseAndList_eq_panic_iff]
    cases hlist : isRegList (insn.operands 1) <;> simp [unhandledOperands, hop, hlist]
  | POP =>
    rw [taken_loadMultiple_eq_panic_iff (.inr hop), baseAndList_eq_panic_iff]
    simp [unhandledOperands, hop]
  | TBB | TBH =>
    rw [taken_table_eq_panic_iff (by simp [hop]), tableBranchAddress_eq_panic_iff]
    simp [unhandledOperands, hop]
  | other => simp [taken, unhandledOperands, hop]

/-- **`next_pc` panics** exactly at a decoded instruction whose condition holds and whose operands
    no arm handles. -/
theorem nextPc_ne_panic_iff (decoder : InstDecoder) (regs : RegContext) (mem : UserMem) :
    nextPc decoder regs mem ≠ .panic ↔
      ∀ bytes insn, ByteMem.read mem (insnAddr regs) 4 = some bytes →
        decoder regs.thumb bytes = .ok insn → evalCond insn.condition regs = true →
        unhandledOperands insn = false := by
  constructor
  · intro hok bytes insn hread hdecode hcond
    by_contra hbad
    rw [nextPc_taken hread hdecode hcond] at hok
    exact hok ((taken_eq_panic_iff insn _ regs mem).mpr (Bool.not_eq_false _ ▸ hbad))
  · intro hhandled
    cases hread : ByteMem.read mem (insnAddr regs) 4 with
    | none => simp [nextPc, hread]
    | some bytes =>
      cases hdecode : decoder regs.thumb bytes with
      | error e => simp [nextPc, hread, hdecode]
      | ok insn =>
        cases hcond : evalCond insn.condition regs with
        | false => simp [nextPc_decoded hread hdecode, hcond]
        | true =>
          rw [nextPc_taken hread hdecode hcond]
          intro hpanic
          have hbad := (taken_eq_panic_iff insn _ regs mem).mp hpanic
          rw [hhandled bytes insn hread hdecode hcond] at hbad
          exact absurd hbad Bool.false_ne_true

/-- `add pc, pc, r0, lsl #2`. -/
def addPcPcR0Lsl2 : Instruction :=
  ⟨.AL, .ADD, fun i => if i = 0 then .reg 15 else if i = 1 then .reg 15 else
    if i = 2 then .regShift (.regImm 0 .LSL 2#8) else .nothing, false, true⟩

theorem knowing_shapes {encoding : List U8} {known : Instruction} (h : WithinShapes known)
    (thumb : Bool) (bytes : List U8) (insn : Instruction)
    (hdecode : knowing encoding known thumb bytes = .ok insn) : WithinShapes insn := by
  unfold knowing at hdecode
  split at hdecode
  · rw [← Except.ok.inj hdecode]
    exact h
  · exact nomatch hdecode

/-- **The switch dispatch `add pc, pc, r0, lsl #2`** panics. -/
theorem nextPc_panics :
    ¬ ∀ (decoder : InstDecoder) (regs : RegContext) (mem : UserMem),
      (∀ thumb bytes insn, decoder thumb bytes = .ok insn → WithinShapes insn) →
      nextPc decoder regs mem ≠ .panic := by
  intro hclaim
  exact hclaim (knowing [0x00#8, 0xF1#8, 0x8F#8, 0xE0#8] addPcPcR0Lsl2)
    (standingAt 0x1000#32 false 1#32 0#32) (textAt 0x1000#32 [0x00#8, 0xF1#8, 0x8F#8, 0xE0#8])
    (knowing_shapes fun _ => ⟨fun _ => .inr rfl, nofun⟩) (by decide)

end VitaGdb.ArmNextPc
