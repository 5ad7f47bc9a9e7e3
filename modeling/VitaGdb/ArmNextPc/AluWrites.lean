/-
  Data-processing instructions that write the program counter.

  `archAlu` is what the architecture computes: the opcode's operation on its sources, registers or
  immediates, with the carry flag.  The sources stand behind the destination, or, in the two-operand
  forms such as `add pc, r0`, the destination is the first of them.  With three operands `eval_alu`
  computes the same (`evalAlu_archAlu`), wrap-around and shift amounts up to 255 included; with two
  it looks for a source that is not there (`evalAlu_twoOperands`).

  What `next_pc` then does with the result is not what the architecture does: it clears bits 1:0 and
  stays in its instruction set, where ALUWritePC clears bit 0 in Thumb state and lets bit 0 select
  the instruction set in ARM state (`nextPc_aluWrite_iff`).
-/
import VitaGdb.ArmNextPc.NextPc
import VitaGdb.Lib.ArmArch

namespace VitaGdb.ArmNextPc

open ArmArch

/-! ## What the architecture computes -/

/-- The value of a register or an immediate. -/
def sourceOf (operand : Operand) (regs : RegContext) : Option U32 :=
  match operand with
  | .reg r => some (regs.reg r)
  | .imm12 value => some (value.setWidth 32)
  | .imm32 value => some value
  | _ => none

/-- The carry flag. -/
def RegContext.carry (regs : RegContext) : Bool := regs.condFlags.2.2.1

/-- The result of the opcodes with two sources.  A shift takes its amount from the last byte. -/
def archBinary (opcode : Opcode) (carry : Bool) (x y : U32) : Option U32 :=
  match opcode with
  | .AND => some (x &&& y)
  | .EOR => some (x ^^^ y)
  | .SUB => some (addWithCarry x (~~~y) true)
  | .RSB => some (addWithCarry y (~~~x) true)
  | .ADD => some (addWithCarry x y false)
  | .ADC => some (addWithCarry x y carry)
  | .SBC => some (addWithCarry x (~~~y) carry)
  | .RSC => some (addWithCarry y (~~~x) carry)
  | .ORR => some (x ||| y)
  | .BIC => some (x &&& ~~~y)
  | .LSL => some (lsl x (y.toNat % 256))
  | .LSR => some (lsr x (y.toNat % 256))
  | .ASR => some (asr x (y.toNat % 256))
  | .ROR => some (ror x (y.toNat % 256))
  | _ => none

/-- The opcodes with one source. -/
def isUnary : Opcode → Bool
  | .MOV | .MVN | .RRX | .ADR => true
  | _ => false

/-- The destination is the first source. -/
def twoOperands (insn : Instruction) : Bool :=
  !isUnary insn.opcode && insn.operands 2 = .nothing

/-- The two sources. -/
def sources (insn : Instruction) : Operand × Operand :=
  if twoOperands insn then (insn.operands 0, insn.operands 1)
  else (insn.operands 1, insn.operands 2)

/-- The result of a data-processing instruction; `none` is an instruction of another kind, or one
    with other sources. -/
def archAlu (insn : Instruction) (regs : RegContext) : Option U32 :=
  match insn.opcode with
  | .MOV => sourceOf (insn.operands 1) regs
  | .MVN => (sourceOf (insn.operands 1) regs).map fun x => ~~~x
  | .RRX => (sourceOf (insn.operands 1) regs).map fun x => rrx x regs.carry
  | opcode =>
    (sourceOf (sources insn).1 regs).bind fun x =>
      (sourceOf (sources insn).2 regs).bind fun y => archBinary opcode regs.carry x y

/-- The answer is ALUWritePC of the result, where that is predictable. -/
def FollowsAluWritePc (decoder : InstDecoder) (regs : RegContext) (mem : UserMem) (result : U32) :
    Prop :=
  ∀ target, aluWritePC regs.thumb result = some target → nextPc decoder regs mem = .ok target

/-! ## `eval_alu` -/

/-- `value_of` reads a register or an immediate. -/
theorem valueOf_sourceOf {operand : Operand} {regs : RegContext} {x : U32}
    (h : sourceOf operand regs = some x) : valueOf operand regs = .ok x := by
  unfold sourceOf at h
  split at h
  · rw [← Option.some.inj h]
    rfl
  · rw [← Option.some.inj h]
    rfl
  · rw [← Option.some.inj h]
    rfl
  · exact absurd h (by simp)

/-- The shift amount is the last byte. -/
theorem shiftAmount_toNat (y : U32) : (y &&& 0xFF#32).toNat = y.toNat % 256 := by
  rw [BitVec.toNat_and]
  exact Nat.and_two_pow_sub_one_eq_mod y.toNat 8

theorem shiftAmount_le_iff (y : U32) : y &&& 0xFF#32 ≤ 31#32 ↔ y.toNat % 256 < 32 := by
  rw [BitVec.le_def, shiftAmount_toNat]
  show y.toNat % 256 ≤ 31 ↔ _
  omega

/-- The borrow of a subtraction with carry. -/
theorem addWithCarry_borrow (x y : U32) (carry : Bool) :
    addWithCarry x (~~~y) carry = x - y - (1#32 - if carry then 1#32 else 0#32) := by
  rw [addWithCarry_not]
  cases carry <;> rfl

/-- The carry flag, as `eval_alu` adds it. -/
theorem carry_word (carry : Bool) :
    (if carry then 1#32 else 0#32 : U32) = BitVec.ofNat 32 carry.toNat := by
  cases carry <;> rfl

/-- A shift by the last byte: the architecture's, from 32 on, is the constant of `eval_alu`. -/
theorem lsl_lastByte (x y : U32) :
    (if y &&& 0xFF#32 ≤ 31#32 then x <<< (y &&& 0xFF#32) else 0#32) = lsl x (y.toNat % 256) := by
  by_cases hsmall : y.toNat % 256 < 32
  · rw [if_pos ((shiftAmount_le_iff y).mpr hsmall), lsl_eq_shiftLeft, BitVec.shiftLeft_eq',
      shiftAmount_toNat]
  · rw [if_neg (fun h => hsmall ((shiftAmount_le_iff y).mp h)), lsl_of_le x (by omega)]

theorem lsr_lastByte (x y : U32) :
    (if y &&& 0xFF#32 ≤ 31#32 then x >>> (y &&& 0xFF#32) else 0#32) = lsr x (y.toNat % 256) := by
  by_cases hsmall : y.toNat % 256 < 32
  · rw [if_pos ((shiftAmount_le_iff y).mpr hsmall), lsr_eq_ushiftRight, BitVec.ushiftRight_eq',
      shiftAmount_toNat]
  · rw [if_neg (fun h => hsmall ((shiftAmount_le_iff y).mp h)), lsr_of_le x (by omega)]

theorem asr_lastByte (x y : U32) :
    (if y &&& 0xFF#32 ≤ 31#32 then x.sshiftRight (y &&& 0xFF#32).toNat
      else if x &&& (1#32 <<< 31) != 0#32 then 0xFFFFFFFF#32 else 0#32) =
      asr x (y.toNat % 256) := by
  by_cases hsmall : y.toNat % 256 < 32
  · rw [if_pos ((shiftAmount_le_iff y).mpr hsmall), asr_eq_sshiftRight, shiftAmount_toNat]
  · have hsign : (x &&& (1#32 <<< 31) != 0#32) = x.msb := by
      have htop : (1#32 <<< 31 : U32) = BitVec.twoPow 32 31 := rfl
      rw [BitVec.msb_eq_getLsbD_last, htop, BitVec.and_twoPow]
      cases x.getLsbD 31 <;> rfl
    rw [if_neg (fun h => hsmall ((shiftAmount_le_iff y).mp h)), asr_of_le x (by omega), hsign]
    rfl

theorem ror_lastByte (x y : U32) :
    x.rotateRight (y &&& 0xFF#32 &&& 31#32).toNat = ror x (y.toNat % 256) := by
  have hmask : (y &&& 0xFF#32 &&& 31#32).toNat = y.toNat % 256 % 32 := by
    rw [BitVec.toNat_and, shiftAmount_toNat]
    exact Nat.and_two_pow_sub_one_eq_mod (y.toNat % 256) 5
  rw [ror_eq_rotateRight, hmask, BitVec.rotateRight_mod_eq_rotateRight]

/-- The two-source opcodes of `eval_alu` on the values of their sources. -/
theorem evalAlu_archBinary {opcode : Opcode} {operands : Fin 4 → Operand} {regs : RegContext}
    {x y result : U32} (hx : valueOf (operands 1) regs = .ok x)
    (hy : valueOf (operands 2) regs = .ok y)
    (h : archBinary opcode regs.carry x y = some result) :
    evalAlu opcode operands regs = .ok result := by
  have hcarry : regs.condFlags.2.2.1 = regs.carry := rfl
  unfold archBinary at h
  unfold evalAlu
  rw [hx, Outcome.ok_bind, hy, hcarry]
  -- one case per opcode; what is not in the table has no result to compare with
  cases opcode with
  | AND | EOR | ORR | BIC =>
    obtain rfl := Option.some.inj h
    rfl
  | ADD =>
    obtain rfl := Option.some.inj h
    rw [addWithCarry_eq]
    exact congrArg Outcome.ok (BitVec.add_zero _).symm
  | ADC =>
    obtain rfl := Option.some.inj h
    rw [addWithCarry_eq, ← carry_word]
    rfl
  | SUB | RSB =>
    obtain rfl := Option.some.inj h
    rw [addWithCarry_borrow]
    exact congrArg Outcome.ok (BitVec.sub_zero _).symm
  | SBC | RSC =>
    obtain rfl := Option.some.inj h
    rw [addWithCarry_borrow]
    rfl
  | LSL =>
    obtain rfl := Option.some.inj h
    exact congrArg Outcome.ok (lsl_lastByte x y)
  | LSR =>
    obtain rfl := Option.some.inj h
    exact congrArg Outcome.ok (lsr_lastByte x y)
  | ASR =>
    obtain rfl := Option.some.inj h
    exact congrArg Outcome.ok (asr_lastByte x y)
  | ROR =>
    obtain rfl := Option.some.inj h
    exact congrArg Outcome.ok (ror_lastByte x y)
  | _ => exact absurd h (by simp)

/-- `RRX` of `eval_alu` is the architecture's. -/
theorem rrx_carry (x : U32) (carry : Bool) :
    (x >>> 1) ||| ((if carry then 1#32 else 0#32) <<< 31) = rrx x carry := by
  rw [rrx, lsr_eq_ushiftRight, lsl_eq_shiftLeft, carry_word]

/-- **With three operands, `eval_alu` computes the architectural result.** -/
theorem evalAlu_archAlu {insn : Instruction} {regs : RegContext} {result : U32}
    (hthree : twoOperands insn = false) (h : archAlu insn regs = some result) :
    evalAlu insn.opcode insn.operands regs = .ok result := by
  have hsources : sources insn = (insn.operands 1, insn.operands 2) := by
    rw [sources, hthree, if_neg Bool.false_ne_true]
  unfold archAlu at h
  split at h
  case h_1 hop =>
    rw [hop, evalAlu, valueOf_sourceOf h]
    rfl
  case h_2 hop =>
    obtain ⟨x, hx, rfl⟩ := Option.map_eq_some_iff.mp h
    rw [hop, evalAlu, valueOf_sourceOf hx]
    rfl
  case h_3 hop =>
    obtain ⟨x, hx, rfl⟩ := Option.map_eq_some_iff.mp h
    rw [hop, evalAlu, valueOf_sourceOf hx, ← rrx_carry]
    rfl
  case h_4 =>
    rw [hsources] at h
    obtain ⟨x, hx, hrest⟩ := Option.bind_eq_some_iff.mp h
    obtain ⟨y, hy, hbinary⟩ := Option.bind_eq_some_iff.mp hrest
    exact evalAlu_archBinary (valueOf_sourceOf hx) (valueOf_sourceOf hy) hbinary

/-- **With two operands, `eval_alu` looks for a third.** -/
theorem evalAlu_twoOperands {insn : Instruction} {regs : RegContext} {result : U32}
    (htwo : twoOperands insn = true) (h : archAlu insn regs = some result) :
    evalAlu insn.opcode insn.operands regs = .panic := by
  have hsources : sources insn = (insn.operands 0, insn.operands 1) := by
    rw [sources, if_pos htwo]
  obtain ⟨hbinary, hnone⟩ := Bool.and_eq_true_iff.mp htwo
  rw [Bool.not_eq_true', ← Bool.not_eq_true] at hbinary
  rw [decide_eq_true_eq] at hnone
  have hpanic : valueOf (insn.operands 2) regs = .panic := by
    rw [hnone]
    rfl
  unfold archAlu at h
  split at h
  case h_1 hop => exact absurd (by rw [hop]; rfl) hbinary
  case h_2 hop => exact absurd (by rw [hop]; rfl) hbinary
  case h_3 hop => exact absurd (by rw [hop]; rfl) hbinary
  case h_4 hmov hmvn hrrx =>
    rw [hsources] at h
    obtain ⟨x, -, hrest⟩ := Option.bind_eq_some_iff.mp h
    obtain ⟨y, hy, -⟩ := Option.bind_eq_some_iff.mp hrest
    rw [evalAlu, valueOf_sourceOf hy, Outcome.ok_bind, hpanic]
    cases hop : insn.opcode with
    | MOV => exact absurd hop hmov
    | MVN => exact absurd hop hmvn
    | RRX => exact absurd hop hrrx
    | ADR => exact absurd (by rw [hop]; rfl) hbinary
    | _ => rfl

/-! ## The write to the program counter -/

/-- The opcodes of the data-processing arm of `next_pc`. -/
def isAluOpcode : Opcode → Bool
  | .AND | .EOR | .SUB | .RSB | .ADD | .ADC | .SBC | .RSC | .ORR | .MOV | .BIC | .MVN
  | .LSL | .LSR | .ASR | .RRX | .ROR | .ADR => true
  | _ => false

/-- The data-processing arm. -/
theorem taken_alu_eq {insn : Instruction} (halu : isAluOpcode insn.opcode = true) (next : Target)
    (regs : RegContext) (mem : UserMem) :
    taken insn next regs mem =
      if isPcDestination (insn.operands 0) then
        evalAlu insn.opcode insn.operands regs >>= fun target =>
          .ok (target &&& ~~~3#32, insn.thumb)
      else .ok next := by
  unfold taken
  unfold isAluOpcode at halu
  cases hop : insn.opcode <;> rw [hop] at halu
  case AND | EOR | SUB | RSB | ADD | ADC | SBC | RSC | ORR | MOV | BIC | MVN | LSL | LSR | ASR
      | RRX | ROR | ADR => rfl
  all_goals exact absurd halu (by simp)

/-- An instruction that writes the program counter. -/
theorem taken_alu {insn : Instruction} (halu : isAluOpcode insn.opcode = true)
    (hpc : isPcDestination (insn.operands 0) = true) (next : Target) (regs : RegContext)
    (mem : UserMem) :
    taken insn next regs mem =
      evalAlu insn.opcode insn.operands regs >>= fun target =>
        .ok (target &&& ~~~3#32, insn.thumb) := by
  rw [taken_alu_eq halu, if_pos hpc]

/-- A data-processing instruction that writes another register. -/
theorem taken_alu_other {insn : Instruction} (halu : isAluOpcode insn.opcode = true)
    (hpc : isPcDestination (insn.operands 0) = false) (next : Target) (regs : RegContext)
    (mem : UserMem) : taken insn next regs mem = .ok next := by
  rw [taken_alu_eq halu, hpc, if_neg Bool.false_ne_true]

/-- Only data-processing opcodes have an architectural result. -/
theorem isAluOpcode_of_archAlu {insn : Instruction} {regs : RegContext} {result : U32}
    (h : archAlu insn regs = some result) : isAluOpcode insn.opcode = true := by
  unfold archAlu at h
  cases hop : insn.opcode <;> rw [hop] at h
  case AND | EOR | SUB | RSB | ADD | ADC | SBC | RSC | ORR | MOV | BIC | MVN | LSL | LSR | ASR
      | RRX | ROR => rfl
  all_goals
    obtain ⟨x, _, hrest⟩ := Option.bind_eq_some_iff.mp h
    obtain ⟨y, _, hbinary⟩ := Option.bind_eq_some_iff.mp hrest
    exact absurd hbinary (by simp [archBinary])

/-- What `next_pc` answers for a data-processing write to the program counter. -/
theorem nextPc_archAlu {decoder : InstDecoder} {regs : RegContext} {mem : UserMem}
    {bytes : List U8} {insn : Instruction} {result : U32}
    (hread : ByteMem.read mem (insnAddr regs) 4 = some bytes)
    (hdecode : decoder regs.thumb bytes = .ok insn) (hset : insn.thumb = regs.thumb)
    (hcond : evalCond insn.condition regs = true)
    (hpc : isPcDestination (insn.operands 0) = true) (hresult : archAlu insn regs = some result) :
    nextPc decoder regs mem =
      if twoOperands insn then .panic else .ok (result &&& ~~~3#32, regs.thumb) := by
  rw [nextPc_taken hread hdecode hcond, taken_alu (isAluOpcode_of_archAlu hresult) hpc]
  cases htwo : twoOperands insn with
  | true => rw [evalAlu_twoOperands htwo hresult, Outcome.panic_bind, if_pos rfl]
  | false =>
    rw [evalAlu_archAlu htwo hresult, Outcome.ok_bind, hset, if_neg Bool.false_ne_true]

/-- Clearing bits 1:0 and staying in the instruction set is ALUWritePC exactly when the bit that
    should not have been cleared is clear: bit 1 in Thumb state, bit 0 in ARM state. -/
theorem aluWritePC_masked_iff (thumb : Bool) (result : U32) :
    (∀ target, aluWritePC thumb result = some target → (result &&& ~~~3#32, thumb) = target) ↔
      result &&& (if thumb then 2#32 else 1#32) = 0#32 := by
  unfold aluWritePC
  cases thumb with
  | true =>
    rw [if_pos rfl, if_pos rfl, ← and_not_three_eq_iff]
    constructor
    · intro h
      exact (Prod.mk.inj (h _ rfl)).1
    · rintro h target ⟨⟩
      rw [h]
  | false =>
    rw [if_neg Bool.false_ne_true, if_neg Bool.false_ne_true]
    unfold bxWritePC
    constructor
    · intro h
      by_contra hodd
      have hsame := h _ (if_pos hodd)
      exact absurd (Prod.mk.inj hsame).2 Bool.false_ne_true
    · intro heven target htarget
      rw [if_neg (fun h => h heven)] at htarget
      split at htarget
      · exact absurd htarget (by simp)
      · rename_i haligned
        -- with both low bits clear there is nothing to clear
        have hlow : result &&& 3#32 = 0#32 := by
          have hbits : (3#32 : U32) = 1#32 ||| 2#32 := rfl
          rw [hbits, BitVec.and_or_distrib_left, heven, not_not.mp haligned]
          rfl
        rw [and_not_of_and_eq_zero hlow, Option.some.inj htarget]

/-- Where the result is unpredictable, the bit is clear. -/
theorem masked_of_unpredictable {thumb : Bool} {result : U32}
    (h : aluWritePC thumb result = none) :
    result &&& (if thumb then 2#32 else 1#32) = 0#32 := by
  rw [← aluWritePC_masked_iff]
  intro target htarget
  exact absurd (h.symm.trans htarget) (by simp)

/-- **A data-processing write to the program counter** follows the architecture exactly when the bit
    it should not have cleared is clear, bit 1 of the result in Thumb state, bit 0 in ARM state, and
    its sources are handed over behind the destination, unless the result is unpredictable. -/
theorem nextPc_aluWrite_iff (decoder : InstDecoder) (regs : RegContext) (mem : UserMem)
    (bytes : List U8) (insn : Instruction) (result : U32)
    (hread : ByteMem.read mem (insnAddr regs) 4 = some bytes)
    (hdecode : decoder regs.thumb bytes = .ok insn) (hset : insn.thumb = regs.thumb)
    (hcond : evalCond insn.condition regs = true)
    (hpc : isPcDestination (insn.operands 0) = true) (hresult : archAlu insn regs = some result) :
    FollowsAluWritePc decoder regs mem result ↔
      result &&& (if regs.thumb then 2#32 else 1#32) = 0#32 ∧
        (twoOperands insn = true → aluWritePC regs.thumb result = none) := by
  have hanswer := nextPc_archAlu hread hdecode hset hcond hpc hresult
  unfold FollowsAluWritePc
  rw [hanswer]
  cases htwo : twoOperands insn with
  | true =>
    -- a panic follows nothing but the unpredictable
    rw [if_pos rfl]
    constructor
    · intro h
      have hnone : aluWritePC regs.thumb result = none := by
        cases htarget : aluWritePC regs.thumb result with
        | none => rfl
        | some target => exact nomatch h target htarget
      exact ⟨masked_of_unpredictable hnone, fun _ => hnone⟩
    · rintro ⟨-, hnone⟩ target htarget
      exact absurd ((hnone rfl).symm.trans htarget) (by simp)
  | false =>
    rw [if_neg Bool.false_ne_true, ← aluWritePC_masked_iff]
    constructor
    · intro h
      exact ⟨fun target htarget => Outcome.ok.inj (h target htarget), nofun⟩
    · rintro ⟨h, -⟩ target htarget
      rw [h target htarget]

/-- `mov pc, r0` in Thumb and in ARM state. -/
def movPcR0 (thumb : Bool) : Instruction :=
  ⟨.AL, .MOV, fun i => if i = 0 then .reg 15 else if i = 1 then .reg 0 else .nothing,
    thumb, !thumb⟩

theorem nextPc_aluWrite_iff_movPcR0 :
    FollowsAluWritePc (knowing [0x87#8, 0x46#8] (movPcR0 true))
      (standingAt 0x1000#32 true 0x2001#32 0#32)
      (textAt 0x1000#32 [0x87#8, 0x46#8]) 0x2001#32 :=
  (nextPc_aluWrite_iff (knowing [0x87#8, 0x46#8] (movPcR0 true))
    (standingAt 0x1000#32 true 0x2001#32 0#32) (textAt 0x1000#32 [0x87#8, 0x46#8])
    [0x87#8, 0x46#8, 0#8, 0#8] (movPcR0 true) 0x2001#32 (by decide) rfl rfl rfl rfl rfl).mpr
    ⟨by decide, nofun⟩

/-- **`mov pc, r0` with r0 = 0x2002 in Thumb state** is predicted at 0x2000. -/
theorem nextPc_not_aluWritePc :
    ¬ ∀ (decoder : InstDecoder) (regs : RegContext) (mem : UserMem) (bytes : List U8)
      (insn : Instruction) (result : U32), ByteMem.read mem (insnAddr regs) 4 = some bytes →
      decoder regs.thumb bytes = .ok insn → insn.thumb = regs.thumb →
      evalCond insn.condition regs = true → isPcDestination (insn.operands 0) = true →
      archAlu insn regs = some result → FollowsAluWritePc decoder regs mem result := by
  intro hclaim
  have hfollows := hclaim (knowing [0x87#8, 0x46#8] (movPcR0 true))
    (standingAt 0x1000#32 true 0x2002#32 0#32) (textAt 0x1000#32 [0x87#8, 0x46#8])
    [0x87#8, 0x46#8, 0#8, 0#8] (movPcR0 true) 0x2002#32 (by decide) rfl rfl rfl rfl rfl
  have htarget := hfollows (0x2002#32, true) (by decide)
  exact absurd htarget (by decide)

end VitaGdb.ArmNextPc
