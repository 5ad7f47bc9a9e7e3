/-
  Position covariance of pc-relative branches.

  `PcRelative` is what a decoder may hand over for `B`, `BL`, `BLX` with an immediate, `CBZ` and
  `CBNZ`: offsets in the operand kind of the instruction set, a low register and an immediate or an
  offset for the last two.  `Covariant` says what pc-relative means for `nextPc`: the same bytes `D`
  further on give the answer `D` further on, and all but `BLX` keep the instruction set.

  `B`, `BL`, `BLX` and every instruction that falls through have it, since their answers are a
  constant away from the program counter (`taken_moved`).  A compare-and-branch with an offset has
  no answer at all: `next_pc` panics on it, wherever it stands.  One with an immediate that branches
  does not have it: the immediate is answered as an absolute address, with bit 0 as the instruction
  set (`nextPc_covariant_iff`).
-/
import VitaGdb.ArmNextPc.NextPc

namespace VitaGdb.ArmNextPc

/-! ## Pc-relative instructions -/

/-- The decoded forms of the pc-relative instructions. -/
inductive PcRelative (insn : Instruction) : Prop where
  | branchArm (offset : I32) (hop : insn.opcode = .B ∨ insn.opcode = .BL)
      (hset : insn.thumb = false) (harg : insn.operands 0 = .branchOffset offset)
  | branchThumb (offset : I32) (hop : insn.opcode = .B ∨ insn.opcode = .BL)
      (hset : insn.thumb = true) (harg : insn.operands 0 = .branchThumbOffset offset)
  | exchange (offset : I32) (hop : insn.opcode = .BLX)
      (harg : insn.operands 0 = .branchOffset offset ∨ insn.operands 0 = .branchThumbOffset offset)
  | compare (rn : Reg) (imm : U32) (hop : insn.opcode = .CBZ ∨ insn.opcode = .CBNZ)
      (hlow : rn.val < 8) (harg : insn.operands 0 = .reg rn ∧ insn.operands 1 = .imm32 imm)
  | compareOffset (rn : Reg) (offset : I32) (hop : insn.opcode = .CBZ ∨ insn.opcode = .CBNZ)
      (hlow : rn.val < 8)
      (harg : insn.operands 0 = .reg rn ∧ insn.operands 1 = .branchThumbOffset offset)

/-- The instructions that stay in their instruction set. -/
def keepsSet (opcode : Opcode) : Bool := opcode matches .B | .BL | .CBZ | .CBNZ

/-- A `CBZ` or `CBNZ` with an immediate that is executed and branches. -/
def compareBranches (insn : Instruction) (regs : RegContext) : Bool :=
  evalCond insn.condition regs &&
    match insn.opcode, insn.operands 0, insn.operands 1 with
    | .CBZ, .reg rn, .imm32 _ => regs.reg rn = 0#32
    | .CBNZ, .reg rn, .imm32 _ => regs.reg rn ≠ 0#32
    | _, _, _ => false

/-- The registers of the same thread `D` bytes further on. -/
def moved (regs : RegContext) (D : U32) : RegContext := regs.withPc (regs.pc + D)

/-- What pc-relative means for the instruction in `bytes`. -/
structure Covariant (decoder : InstDecoder) (regs : RegContext) (mem : UserMem) (bytes : List U8)
    (insn : Instruction) : Prop where
  moves : ∀ (D : U32) (mem' : UserMem) (a : U32) (t : Bool), 4 ∣ D.toNat →
    ByteMem.read mem' (insnAddr (moved regs D)) 4 = some bytes →
    nextPc decoder regs mem = .ok (a, t) → nextPc decoder (moved regs D) mem' = .ok (a + D, t)
  keeps : ∀ (a : U32) (t : Bool), keepsSet insn.opcode = true →
    nextPc decoder regs mem = .ok (a, t) → t = regs.thumb

/-! ## Moving an instruction -/

/-- An answer `D` bytes further on. -/
def shift (D : U32) (target : Target) : Target := (target.1 + D, target.2)

theorem add_add_right (x d y : U32) : x + d + y = x + y + d := by
  rw [BitVec.add_assoc, BitVec.add_comm d, ← BitVec.add_assoc]

theorem sub_add_right (x d y : U32) : x + d - y = x - y + d := by
  rw [BitVec.sub_add_comm]

theorem insnAddr_moved (regs : RegContext) (D : U32) :
    insnAddr (moved regs D) = insnAddr regs + D := by
  rw [insnAddr, insnAddr, moved, RegContext.withPc_thumb, RegContext.withPc_pc]
  split <;> exact sub_add_right _ _ _

theorem fallthroughOf_add (insn : Instruction) (addr D : U32) :
    fallthroughOf insn (addr + D) = shift D (fallthroughOf insn addr) := by
  rw [fallthroughOf, add_add_right]
  rfl

theorem thumbBranchTarget_moved (condition : ConditionCode) (offset : I32) (regs : RegContext)
    (D : U32) :
    thumbBranchTarget condition offset (moved regs D) =
      thumbBranchTarget condition offset regs + D := by
  have hpc : (moved regs D).pc = regs.pc + D := rfl
  by_cases hcond : condition = .AL
  · simp only [thumbBranchTarget, hcond, if_true, hpc, add_add_right]
  · simp only [thumbBranchTarget, hcond, if_false, hpc, sub_add_right, add_add_right]

/-- A compare-and-branch with an offset for its operand panics, whatever the comparison says. -/
theorem taken_compareOffset {insn : Instruction} {rn : Reg} {offset : I32}
    (hop : insn.opcode = .CBZ ∨ insn.opcode = .CBNZ) (h0 : insn.operands 0 = .reg rn)
    (h1 : insn.operands 1 = .branchThumbOffset offset) (next : Target) (regs : RegContext)
    (mem : UserMem) : taken insn next regs mem = .panic := by
  rcases hop with hop | hop <;> simp only [taken, hop, h0, h1]

/-- **What a pc-relative instruction answers moves with it**, unless it compares and branches. -/
theorem taken_moved {insn : Instruction} {regs : RegContext} (hrel : PcRelative insn)
    (hcond : evalCond insn.condition regs = true) (hno : compareBranches insn regs = false)
    {next target : Target} {mem : UserMem} (mem' : UserMem) (D : U32)
    (htaken : taken insn next regs mem = .ok target) :
    taken insn (shift D next) (moved regs D) mem' = .ok (shift D target) := by
  have hpc : (moved regs D).pc = regs.pc + D := rfl
  cases hrel with
  | branchArm offset hop hset harg =>
    rcases hop with hop | hop <;>
      · simp only [taken, hop, harg, Outcome.ok.injEq] at htaken ⊢
        rw [← htaken, hpc, add_add_right]
        rfl
  | branchThumb offset hop hset harg =>
    rcases hop with hop | hop <;>
      · simp only [taken, hop, harg, Outcome.ok.injEq] at htaken ⊢
        rw [← htaken, thumbBranchTarget_moved]
        rfl
  | exchange offset hop harg =>
    rcases harg with harg | harg <;>
      · simp only [taken, hop, harg, Outcome.ok.injEq] at htaken ⊢
        rw [← htaken, hpc, add_add_right]
        rfl
  | compare rn imm hop hlow harg =>
    obtain ⟨h0, h1⟩ := harg
    have hreg : (moved regs D).reg rn = regs.reg rn := regs.withPc_reg _ (by omega)
    -- the register does not depend on the place, and the comparison fails: both fall through
    rcases hop with hop | hop
    · have hne : ¬ regs.reg rn = 0#32 := by
        simpa [compareBranches, hcond, hop, h0, h1] using hno
      simp only [taken, hop, h0, h1, hreg, hne, if_false, Outcome.ok.injEq] at htaken ⊢
      rw [htaken]
    · have heq : regs.reg rn = 0#32 := by
        simpa [compareBranches, hcond, hop, h0, h1] using hno
      simp only [taken, hop, h0, h1, hreg, heq, ne_eq, not_true_eq_false, if_false,
        Outcome.ok.injEq] at htaken ⊢
      rw [htaken]
  | compareOffset rn offset hop hlow harg =>
    rw [taken_compareOffset hop harg.1 harg.2] at htaken
    exact nomatch htaken

/-- A pc-relative instruction that does not compare and branch answers its own instruction set,
    `BLX` apart. -/
theorem taken_keepsSet {insn : Instruction} {regs : RegContext} (hrel : PcRelative insn)
    (hcond : evalCond insn.condition regs = true) (hno : compareBranches insn regs = false)
    (hkeep : keepsSet insn.opcode = true) {next : Target} (hnext : next.2 = insn.thumb)
    {mem : UserMem} {target : Target} (htaken : taken insn next regs mem = .ok target) :
    target.2 = insn.thumb := by
  cases hrel with
  | branchArm offset hop hset harg =>
    rcases hop with hop | hop <;>
      · simp only [taken, hop, harg, Outcome.ok.injEq] at htaken
        rw [← htaken, hset]
  | branchThumb offset hop hset harg =>
    rcases hop with hop | hop <;>
      · simp only [taken, hop, harg, Outcome.ok.injEq] at htaken
        rw [← htaken, hset]
  | exchange offset hop harg =>
    rw [hop] at hkeep
    exact absurd hkeep (by decide)
  | compare rn imm hop hlow harg =>
    obtain ⟨h0, h1⟩ := harg
    rcases hop with hop | hop
    · have hne : ¬ regs.reg rn = 0#32 := by
        simpa [compareBranches, hcond, hop, h0, h1] using hno
      simp only [taken, hop, h0, h1, hne, if_false, Outcome.ok.injEq] at htaken
      rw [← htaken, hnext]
    · have heq : regs.reg rn = 0#32 := by
        simpa [compareBranches, hcond, hop, h0, h1] using hno
      simp only [taken, hop, h0, h1, heq, ne_eq, not_true_eq_false, if_false,
        Outcome.ok.injEq] at htaken
      rw [← htaken, hnext]
  | compareOffset rn offset hop hlow harg =>
    rw [taken_compareOffset hop harg.1 harg.2] at htaken
    exact nomatch htaken

/-- A compare-and-branch that branches answers its immediate, wherever it stands. -/
theorem taken_compareBranches {insn : Instruction} {regs : RegContext} (hrel : PcRelative insn)
    (hyes : compareBranches insn regs = true) :
    ∃ imm, ∀ (next : Target) (mem : UserMem) (D : U32),
      taken insn next (moved regs D) mem = .ok (interwork imm) := by
  have hbranch := (Bool.and_eq_true_iff.mp hyes).2
  cases hrel with
  | branchArm offset hop hset harg => rcases hop with hop | hop <;> simp [hop] at hbranch
  | branchThumb offset hop hset harg => rcases hop with hop | hop <;> simp [hop] at hbranch
  | exchange offset hop harg => simp [hop] at hbranch
  | compare rn imm hop hlow harg =>
    obtain ⟨h0, h1⟩ := harg
    refine ⟨imm, fun next mem D => ?_⟩
    have hreg : (moved regs D).reg rn = regs.reg rn := regs.withPc_reg _ (by omega)
    rcases hop with hop | hop
    · have heq : regs.reg rn = 0#32 := by simpa [hop, h0, h1] using hbranch
      simp only [taken, hop, h0, h1, hreg, heq, if_true]
    · have hne : regs.reg rn ≠ 0#32 := by simpa [hop, h0, h1] using hbranch
      simp only [taken, hop, h0, h1, hreg, hne, ne_eq, not_false_eq_true, if_true]
  | compareOffset rn offset hop hlow harg =>
    rcases hop with hop | hop <;> simp [hop, harg.1, harg.2] at hbranch

/-! ## `next_pc` -/

/-- **`next_pc` is position covariant** on a pc-relative instruction exactly when this is not a
    compare-and-branch with an immediate that branches. -/
theorem nextPc_covariant_iff (decoder : InstDecoder) (regs : RegContext) (mem : UserMem)
    (bytes : List U8) (insn : Instruction)
    (hread : ByteMem.read mem (insnAddr regs) 4 = some bytes)
    (hdecode : decoder regs.thumb bytes = .ok insn) (hset : insn.thumb = regs.thumb)
    (hrel : PcRelative insn) :
    Covariant decoder regs mem bytes insn ↔ compareBranches insn regs = false := by
  have hmoved : ∀ (D : U32) (mem' : UserMem),
      ByteMem.read mem' (insnAddr (moved regs D)) 4 = some bytes →
      nextPc decoder (moved regs D) mem' =
        if !evalCond insn.condition regs then .ok (shift D (fallthroughOf insn (insnAddr regs)))
        else taken insn (shift D (fallthroughOf insn (insnAddr regs))) (moved regs D) mem' := by
    intro D mem' hread'
    rw [nextPc_decoded hread' hdecode, insnAddr_moved, fallthroughOf_add, moved,
      evalCond_withPc]
  have hhere := nextPc_decoded hread hdecode
  constructor
  · intro hcov
    by_contra hno
    have hyes : compareBranches insn regs = true := by simpa using hno
    have hcond : evalCond insn.condition regs = true := (Bool.and_eq_true_iff.mp hyes).1
    obtain ⟨imm, himm⟩ := taken_compareBranches hrel hyes
    -- the immediate is the answer here and four bytes further on
    have hzero : moved regs 0#32 = regs := by
      rw [moved, BitVec.add_zero]
      rfl
    have hans := himm (fallthroughOf insn (insnAddr regs)) mem 0#32
    rw [hzero] at hans
    have hlen : bytes.length ≤ 2 ^ 32 := by
      rw [ByteMem.read_length hread]
      decide
    have hread' := ByteMem.read_write_same mem (insnAddr (moved regs 4#32)) hlen
    rw [ByteMem.read_length hread] at hread'
    have hfour := hcov.moves 4#32 _ _ _ (by decide) hread'
      (hhere.trans (by rw [hcond]; exact hans))
    rw [hmoved 4#32 _ hread', hcond] at hfour
    have heq := (himm _ _ 4#32).symm.trans hfour
    rw [Outcome.ok.injEq, Prod.mk.injEq] at heq
    have hself : imm &&& ~~~1#32 = (imm &&& ~~~1#32) + 4#32 := heq.1
    generalize imm &&& ~~~1#32 = x at hself
    bv_omega
  · intro hno
    by_cases hcond : evalCond insn.condition regs = true
    · rw [hcond] at hhere hmoved
      refine ⟨fun D mem' a t _ hread' hans => ?_, fun a t hkeep hans => ?_⟩
      · rw [hmoved D mem' hread']
        exact taken_moved hrel hcond hno mem' D (hhere.symm.trans hans)
      · have hown := taken_keepsSet hrel hcond hno hkeep rfl (hhere.symm.trans hans)
        exact hown.trans hset
    · rw [Bool.not_eq_true] at hcond
      rw [hcond] at hhere hmoved
      refine ⟨fun D mem' a t _ hread' hans => ?_, fun a t _ hans => ?_⟩
      · rw [hmoved D mem' hread']
        have hfall : fallthroughOf insn (insnAddr regs) = (a, t) :=
          Outcome.ok.inj (hhere.symm.trans hans)
        rw [hfall]
        rfl
      · have hfall : fallthroughOf insn (insnAddr regs) = (a, t) :=
          Outcome.ok.inj (hhere.symm.trans hans)
        exact (congrArg Prod.snd hfall).symm.trans hset

/-- `b #0x100` in ARM state, decoded as 0x42 words. -/
def bForward : Instruction :=
  ⟨.AL, .B, fun i => if i = 0 then .branchOffset 0x42#32 else .nothing, false, true⟩

theorem nextPc_covariant_iff_bForward :
    Covariant (knowing [0x40#8, 0#8, 0#8, 0xEA#8] bForward) (standingAt 0x1000#32 false 0#32 0#32)
      (textAt 0x1000#32 [0x40#8, 0#8, 0#8, 0xEA#8]) [0x40#8, 0#8, 0#8, 0xEA#8] bForward :=
  (nextPc_covariant_iff (knowing [0x40#8, 0#8, 0#8, 0xEA#8] bForward)
    (standingAt 0x1000#32 false 0#32 0#32) (textAt 0x1000#32 [0x40#8, 0#8, 0#8, 0xEA#8])
    [0x40#8, 0#8, 0#8, 0xEA#8] bForward (by decide) rfl rfl
    (.branchArm 0x42#32 (.inl rfl) rfl rfl)).mpr rfl

/-- `cbz r0, #4` in Thumb state, with its offset as an immediate. -/
def cbz : Instruction :=
  ⟨.AL, .CBZ, fun i => if i = 0 then .reg 0 else if i = 1 then .imm32 4#32 else .nothing,
    true, false⟩

/-- **A taken `cbz`** with an immediate goes to address 4 in ARM state from wherever it stands. -/
theorem nextPc_not_covariant :
    ¬ ∀ (decoder : InstDecoder) (regs : RegContext) (mem : UserMem) (bytes : List U8)
      (insn : Instruction), ByteMem.read mem (insnAddr regs) 4 = some bytes →
      decoder regs.thumb bytes = .ok insn → insn.thumb = regs.thumb → PcRelative insn →
      Covariant decoder regs mem bytes insn := by
  intro hclaim
  have hcov := hclaim (knowing [0x10#8, 0xB1#8] cbz) (standingAt 0x1000#32 true 0#32 0#32)
    (textAt 0x1000#32 [0x10#8, 0xB1#8]) [0x10#8, 0xB1#8, 0#8, 0#8] cbz (by decide) rfl rfl
    (.compare 0 4#32 (.inl rfl) (by decide) ⟨rfl, rfl⟩)
  have hfour := hcov.moves 0x1000#32 (textAt 0x2000#32 [0x10#8, 0xB1#8]) 4#32 false (by decide)
    (by decide) (by decide)
  exact absurd hfour (by decide)

end VitaGdb.ArmNextPc
