/-
  Branches with an immediate offset: conditional against unconditional, and `BLX`.

  A `BranchThumbOffset` counts halfwords from one base whatever the condition, but `next_pc` adds
  it to the program counter plus 4 for "always" and minus 4 for every other condition; so a
  conditional branch agrees with the unconditional one only where it is unconditional
  (`nextPc_branch_agree_iff`).

  `BLX` with an immediate changes the instruction set, and from Thumb state counts from the program
  counter aligned down to 4.  `next_pc` answers by the form of the operand and does not align
  (`nextPc_blx_iff`).
-/
import VitaGdb.ArmNextPc.DataReads

namespace VitaGdb.ArmNextPc

open ArmArch

/-! ## Conditional and unconditional Thumb branches -/

/-- The answer of a taken Thumb branch. -/
theorem taken_thumbBranch {insn : Instruction} {offset : I32}
    (hop : insn.opcode = .B ∨ insn.opcode = .BL)
    (h0 : insn.operands 0 = .branchThumbOffset offset) (next : Target) (regs : RegContext)
    (mem : UserMem) :
    taken insn next regs mem = .ok (thumbBranchTarget insn.condition offset regs, true) := by
  unfold taken
  obtain hop | hop := hop
  · simp only [hop, h0]
  · simp only [hop, h0]

/-- The base of a branch is 8 lower where it has a condition. -/
theorem thumbBranchTarget_eq_iff (condition : ConditionCode) (offset : I32) (regs : RegContext) :
    thumbBranchTarget condition offset regs = thumbBranchTarget .AL offset regs ↔
      condition = .AL := by
  unfold thumbBranchTarget
  constructor
  · intro h
    by_contra hne
    rw [if_neg hne, if_pos rfl, BitVec.add_left_inj, BitVec.sub_eq_add_neg,
      BitVec.add_right_inj] at h
    exact absurd h (by decide)
  · rintro rfl
    rfl

/-- **A conditional Thumb branch** goes where the unconditional one with its offset goes, 4 plus the
    program counter plus twice the offset, exactly when its condition is "always". -/
theorem nextPc_branch_agree_iff (decoder decoder' : InstDecoder) (regs : RegContext)
    (mem mem' : UserMem) (bytes bytes' : List U8) (insn always : Instruction) (offset : I32)
    (hread : ByteMem.read mem (insnAddr regs) 4 = some bytes)
    (hdecode : decoder regs.thumb bytes = .ok insn)
    (hread' : ByteMem.read mem' (insnAddr regs) 4 = some bytes')
    (hdecode' : decoder' regs.thumb bytes' = .ok always)
    (hop : insn.opcode = .B) (h0 : insn.operands 0 = .branchThumbOffset offset)
    (hcond : evalCond insn.condition regs = true)
    (hop' : always.opcode = .B ∨ always.opcode = .BL)
    (h0' : always.operands 0 = .branchThumbOffset offset) (halways : always.condition = .AL) :
    (nextPc decoder regs mem = nextPc decoder' regs mem' ∧
      nextPc decoder' regs mem' = .ok (4#32 + regs.pc + 2#32 * offset, true)) ↔
      insn.condition = .AL := by
  have hconditional : nextPc decoder regs mem =
      .ok (thumbBranchTarget insn.condition offset regs, true) := by
    rw [nextPc_taken hread hdecode hcond, taken_thumbBranch (.inl hop) h0]
  have halways' : nextPc decoder' regs mem' = .ok (thumbBranchTarget .AL offset regs, true) := by
    rw [nextPc_taken hread' hdecode' (by rw [halways]; rfl), taken_thumbBranch hop' h0', halways]
  have htarget : thumbBranchTarget .AL offset regs = 4#32 + regs.pc + 2#32 * offset := by
    rw [thumbBranchTarget, if_pos rfl, shiftLeft_one, BitVec.add_comm regs.pc]
  rw [hconditional, halways', ← thumbBranchTarget_eq_iff insn.condition offset regs, htarget]
  constructor
  · rintro ⟨hsame, _⟩
    exact (Prod.mk.inj (Outcome.ok.inj hsame)).1
  · intro hsame
    rw [hsame]
    exact ⟨rfl, rfl⟩

/-- `b` or `bl` with a condition and an offset in halfwords. -/
def thumbB (condition : ConditionCode) (offset : I32) : Instruction :=
  ⟨condition, .B, fun i => if i = 0 then .branchThumbOffset offset else .nothing, true, false⟩
def thumbBl (offset : I32) : Instruction :=
  ⟨.AL, .BL, fun i => if i = 0 then .branchThumbOffset offset else .nothing, true, true⟩

/-- A Thumb context at 0x1000 with the Z flag set. -/
def thumbZ : RegContext :=
  { standingAt 0x1000#32 true 0#32 0#32 with cpsr := (1#32 <<< 5) ||| (1#32 <<< 30) }

theorem nextPc_branch_agree_iff_b :
    nextPc (knowing [0x04#8, 0xE0#8] (thumbB .AL 4#32)) thumbZ (textAt 0x1000#32 [0x04#8, 0xE0#8]) =
        nextPc (knowing [0x00#8, 0xF0#8, 0x04#8, 0xF8#8] (thumbBl 4#32)) thumbZ
          (textAt 0x1000#32 [0x00#8, 0xF0#8, 0x04#8, 0xF8#8]) ∧
      nextPc (knowing [0x00#8, 0xF0#8, 0x04#8, 0xF8#8] (thumbBl 4#32)) thumbZ
          (textAt 0x1000#32 [0x00#8, 0xF0#8, 0x04#8, 0xF8#8]) =
        .ok (4#32 + thumbZ.pc + 2#32 * 4#32, true) :=
  (nextPc_branch_agree_iff (knowing [0x04#8, 0xE0#8] (thumbB .AL 4#32))
    (knowing [0x00#8, 0xF0#8, 0x04#8, 0xF8#8] (thumbBl 4#32)) thumbZ
    (textAt 0x1000#32 [0x04#8, 0xE0#8]) (textAt 0x1000#32 [0x00#8, 0xF0#8, 0x04#8, 0xF8#8])
    [0x04#8, 0xE0#8, 0#8, 0#8] [0x00#8, 0xF0#8, 0x04#8, 0xF8#8] (thumbB .AL 4#32) (thumbBl 4#32)
    4#32 (by decide) rfl (by decide) rfl rfl rfl rfl (.inr rfl) rfl rfl).mpr rfl

/-- **A taken `beq`** is predicted 8 bytes below the `b` of the same offset. -/
theorem nextPc_branch_disagree :
    ¬ ∀ (decoder decoder' : InstDecoder) (regs : RegContext) (mem mem' : UserMem)
      (bytes bytes' : List U8) (insn always : Instruction) (offset : I32), regs.thumb = true →
      ByteMem.read mem (insnAddr regs) 4 = some bytes →
      decoder regs.thumb bytes = .ok insn → ByteMem.read mem' (insnAddr regs) 4 = some bytes' →
      decoder' regs.thumb bytes' = .ok always → insn.opcode = .B →
      insn.operands 0 = .branchThumbOffset offset → evalCond insn.condition regs = true →
      always.opcode = .B ∨ always.opcode = .BL →
      always.operands 0 = .branchThumbOffset offset → always.condition = .AL →
      nextPc decoder regs mem = nextPc decoder' regs mem' ∧
        nextPc decoder' regs mem' = .ok (4#32 + regs.pc + 2#32 * offset, true) := by
  intro hclaim
  have hagree := hclaim (knowing [0x03#8, 0xD0#8] (thumbB .EQ 4#32))
    (knowing [0x04#8, 0xE0#8] (thumbB .AL 4#32)) thumbZ (textAt 0x1000#32 [0x03#8, 0xD0#8])
    (textAt 0x1000#32 [0x04#8, 0xE0#8]) [0x03#8, 0xD0#8, 0#8, 0#8] [0x04#8, 0xE0#8, 0#8, 0#8]
    (thumbB .EQ 4#32) (thumbB .AL 4#32) 4#32 rfl (by decide) rfl (by decide) rfl rfl rfl
    (by decide) (.inl rfl) rfl rfl
  exact absurd hagree.1 (by decide)

/-! ## `BLX` with an immediate -/

/-- The bytes of an immediate offset: words for one operand form, halfwords for the other. -/
def offsetBytes : Operand → Option U32
  | .branchOffset offset => some (4#32 * offset)
  | .branchThumbOffset offset => some (2#32 * offset)
  | _ => none

/-- The answer is in the opposite instruction set; in ARM state it is a multiple of 4, counted from
    the aligned program counter. -/
def SwitchesSet (decoder : InstDecoder) (regs : RegContext) (mem : UserMem) (offset : U32) : Prop :=
  ∃ target, nextPc decoder regs mem = .ok (target, !regs.thumb) ∧
    (regs.thumb = true → target = align4 regs.pc + offset ∧ target &&& 3#32 = 0#32)

/-- The operand form is the one `next_pc` expects in this state, and in Thumb state neither the
    program counter nor the offset is in the way of a multiple of 4. -/
def blxInStep (operand : Operand) (regs : RegContext) : Bool :=
  match operand with
  | .branchOffset _ => !regs.thumb
  | .branchThumbOffset offset =>
    regs.thumb && regs.pc &&& 3#32 == 0#32 && offset &&& 1#32 == 0#32
  | _ => false

/-- From an aligned address, twice an offset leads to an aligned one exactly when it is even. -/
theorem add_double_aligned_iff {pc : U32} (hpc : pc &&& 3#32 = 0#32) (offset : U32) :
    (pc + 2#32 * offset) &&& 3#32 = 0#32 ↔ offset &&& 1#32 = 0#32 := by
  rw [and_three_eq_zero_iff] at hpc ⊢
  rw [and_one_eq_zero_iff, BitVec.toNat_add, BitVec.toNat_mul]
  simp only [BitVec.toNat_ofNat]
  omega

/-- **`BLX` with an immediate** changes the instruction set as it should exactly when the operand
    has the form of the current state and, in Thumb state, program counter and offset are aligned.
    -/
theorem nextPc_blx_iff (decoder : InstDecoder) (regs : RegContext) (mem : UserMem)
    (bytes : List U8) (insn : Instruction) (offset : U32)
    (hread : ByteMem.read mem (insnAddr regs) 4 = some bytes)
    (hdecode : decoder regs.thumb bytes = .ok insn)
    (hcond : evalCond insn.condition regs = true) (hop : insn.opcode = .BLX)
    (hoffset : offsetBytes (insn.operands 0) = some offset) :
    SwitchesSet decoder regs mem offset ↔ blxInStep (insn.operands 0) regs = true := by
  have hnext : nextPc decoder regs mem =
      taken insn (fallthroughOf insn (insnAddr regs)) regs mem := nextPc_taken hread hdecode hcond
  unfold SwitchesSet
  rw [hnext]
  unfold taken
  rw [hop]
  cases h0 : insn.operands 0 with
  | branchOffset words =>
    cases hthumb : regs.thumb with
    | false => simp [blxInStep, hthumb]
    | true => simp [blxInStep, hthumb]
  | branchThumbOffset halfwords =>
    rw [h0] at hoffset
    obtain rfl := Option.some.inj hoffset
    cases hthumb : regs.thumb with
    | false => simp [blxInStep, hthumb]
    | true =>
      simp only [blxInStep, hthumb, Bool.not_true, Bool.true_and, Bool.and_eq_true,
        beq_iff_eq, forall_const, Outcome.ok.injEq, Prod.mk.injEq, and_true, exists_eq_left']
      rw [shiftLeft_one, BitVec.add_left_inj, eq_comm, align4_eq_iff]
      constructor
      · rintro ⟨hpc, haligned⟩
        exact ⟨hpc, (add_double_aligned_iff hpc halfwords).mp haligned⟩
      · rintro ⟨hpc, heven⟩
        exact ⟨hpc, (add_double_aligned_iff hpc halfwords).mpr heven⟩
  | _ =>
    rw [h0] at hoffset
    exact nomatch hoffset

/-- `blx` with an offset in halfwords, in Thumb state. -/
def thumbBlx (offset : I32) : Instruction :=
  ⟨.AL, .BLX, fun i => if i = 0 then .branchThumbOffset offset else .nothing, true, true⟩

theorem nextPc_blx_iff_aligned :
    SwitchesSet (knowing [0x00#8, 0xF0#8, 0x08#8, 0xE8#8] (thumbBlx 8#32))
      (standingAt 0x1000#32 true 0#32 0#32)
      (textAt 0x1000#32 [0x00#8, 0xF0#8, 0x08#8, 0xE8#8]) 16#32 :=
  (nextPc_blx_iff (knowing [0x00#8, 0xF0#8, 0x08#8, 0xE8#8] (thumbBlx 8#32))
    (standingAt 0x1000#32 true 0#32 0#32) (textAt 0x1000#32 [0x00#8, 0xF0#8, 0x08#8, 0xE8#8])
    [0x00#8, 0xF0#8, 0x08#8, 0xE8#8] (thumbBlx 8#32) 16#32 (by decide) rfl rfl rfl rfl).mpr
    (by decide)

/-- **A Thumb `blx` at 0x1002** is predicted at a halfword address in ARM state. -/
theorem nextPc_not_switchesSet :
    ¬ ∀ (decoder : InstDecoder) (regs : RegContext) (mem : UserMem) (bytes : List U8)
      (insn : Instruction) (offset : U32), ByteMem.read mem (insnAddr regs) 4 = some bytes →
      decoder regs.thumb bytes = .ok insn → evalCond insn.condition regs = true →
      insn.opcode = .BLX → offsetBytes (insn.operands 0) = some offset →
      SwitchesSet decoder regs mem offset := by
  intro hclaim
  obtain ⟨target, hnext, harm⟩ := hclaim
    (knowing [0x00#8, 0xF0#8, 0x08#8, 0xE8#8] (thumbBlx 8#32))
    (standingAt 0x1002#32 true 0#32 0#32) (textAt 0x1002#32 [0x00#8, 0xF0#8, 0x08#8, 0xE8#8])
    [0x00#8, 0xF0#8, 0x08#8, 0xE8#8] (thumbBlx 8#32) 16#32 (by decide) rfl rfl rfl rfl
  have htarget : target = 0x1016#32 := (Prod.mk.inj (Outcome.ok.inj hnext)).1.symm
  rw [htarget] at harm
  exact absurd (harm (by decide)).2 (by decide)

end VitaGdb.ArmNextPc
