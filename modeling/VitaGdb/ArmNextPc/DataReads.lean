/-
  The data `next_pc` reads: at most one word, halfword or byte, for loads into the program counter
  and table branches.

  `dataRead` is the address and the length `next_pc` hands to its `MemReader` for an instruction
  (`taken_cases`).  Without one the answer is the same in every memory (`taken_of_noDataRead`),
  with one it is a function of what is read there, or `MemoryRead` (`taken_of_dataRead`).

  The architecture's own addresses are those of the base register plus or minus an offset, of the
  loop of a load-multiple, and of the entry of a table.  A load-multiple agrees where its list is
  the second operand, as `LDM` has it; a `POP` with nothing but its list panics
  (`nextPc_loadMultiple_iff`).  A load agrees unless its base is a program counter that is not a
  multiple of 4 (`nextPc_load_iff`).  A table branch agrees by bytes; by halfwords the decoder hands
  over a shifted index, on which `next_pc` panics, and without the shift it agrees only where the
  doubled index is 0 (`nextPc_table_iff`).
-/
import VitaGdb.ArmNextPc.Shapes

namespace VitaGdb.ArmNextPc

open ArmArch

/-! ## The one read -/

/-- The address and the length of the data read an instruction makes. -/
def dataRead (insn : Instruction) (regs : RegContext) : Option (U32 × Nat) :=
  match insn.opcode with
  | .LDR | .LDRT =>
    if isPcDestination (insn.operands 0) then
      match effectiveAddress (insn.operands 1) regs with
      | .ok address => some (address, 4)
      | _ => none
    else none
  | .LDM _ _ _ _ | .POP =>
    match baseAndList insn with
    | .ok (baseReg, list) =>
      if list &&& (1#16 <<< 15) = 0#16 then none
      else
        match pcSlot insn.opcode (regs.reg baseReg) list with
        | .ok address => some (address, 4)
        | _ => none
    | _ => none
  | .TBB =>
    match tableBranchAddress insn.operands regs with
    | .ok (baseVal, indexVal) => some (baseVal + indexVal, 1)
    | _ => none
  | .TBH =>
    match tableBranchAddress insn.operands regs with
    | .ok (baseVal, indexVal) => some (baseVal + (indexVal <<< 2), 2)
    | _ => none
  | _ => none

/-! Nothing but a read ends in an error. -/

theorem valueOf_ne_err (operand : Operand) (regs : RegContext) (e : NextPcError) :
    valueOf operand regs ≠ .err e := by
  cases operand <;> simp [valueOf]

theorem effectiveAddress_ne_err (operand : Operand) (regs : RegContext) (e : NextPcError) :
    effectiveAddress operand regs ≠ .err e := by
  cases operand with
  | regDerefPreindexOffset base offset add wback => cases add <;> simp [effectiveAddress]
  | _ => simp [effectiveAddress]

theorem evalAlu_ne_err (opcode : Opcode) (operands : Fin 4 → Operand) (regs : RegContext)
    (e : NextPcError) : evalAlu opcode operands regs ≠ .err e := by
  unfold evalAlu
  refine Outcome.bind_ne_err (valueOf_ne_err _ _) (fun first e => ?_) e
  cases opcode with
  | MOV | ADR | MVN | RRX => simp
  | _ =>
    refine Outcome.bind_ne_err (valueOf_ne_err _ _) (fun second e => ?_) e
    simp

theorem baseAndList_ne_err (insn : Instruction) (e : NextPcError) : baseAndList insn ≠ .err e := by
  unfold baseAndList
  split <;> try simp
  split <;> simp

theorem tableBranchAddress_ne_err (operands : Fin 4 → Operand) (regs : RegContext)
    (e : NextPcError) : tableBranchAddress operands regs ≠ .err e := by
  unfold tableBranchAddress
  split <;> simp

/-- **An instruction makes one data read or none**: without one the answer is the same in every
    memory, and no error; with one it is a function of what is read, or `MemoryRead`. -/
theorem taken_cases (insn : Instruction) (regs : RegContext) (next : Target) :
    (dataRead insn regs = none ∧ ∃ result, (∀ e, result ≠ .err e) ∧
      ∀ mem, taken insn next regs mem = result) ∨
    ∃ address n, ∃ answer : U32 → Target, dataRead insn regs = some (address, n) ∧ n ≤ 4 ∧
      ∀ mem, taken insn next regs mem =
        readLe mem n address >>= fun value => .ok (answer value) := by
  unfold dataRead
  cases hop : insn.opcode with
  | LDR | LDRT =>
    have hload : insn.opcode = .LDR ∨ insn.opcode = .LDRT := by simp [hop]
    cases hpc : isPcDestination (insn.operands 0) with
    | false => exact .inl ⟨rfl, .ok next, by simp, fun mem => taken_load_other hload hpc _ _ _⟩
    | true =>
      simp only [if_true]
      cases haddr : effectiveAddress (insn.operands 1) regs with
      | ok address =>
        refine .inr ⟨address, 4, interwork, rfl, by decide, fun mem => ?_⟩
        rw [taken_load hload hpc, haddr]
        rfl
      | err e => exact absurd haddr (effectiveAddress_ne_err _ _ e)
      | panic =>
        refine .inl ⟨rfl, .panic, by simp, fun mem => ?_⟩
        rw [taken_load hload hpc, haddr]
        rfl
  | LDM add pre wback usermode | POP =>
    have hload : IsLoadMultiple insn.opcode := by simp [IsLoadMultiple, hop]
    cases hlist : baseAndList insn with
    | err e => exact absurd hlist (baseAndList_ne_err insn e)
    | panic => exact .inl ⟨rfl, .panic, by simp, fun mem => by simp [taken, hop, hlist]⟩
    | ok bl =>
      by_cases hpc : bl.2 &&& (1#16 <<< 15) = 0#16
      · refine .inl ⟨by simp only [if_pos hpc], .ok next, by simp, fun mem => ?_⟩
        rw [taken_loadMultiple hload hlist, if_pos hpc]
      · obtain ⟨address, hslot⟩ := pcSlot_ok hload (regs.reg bl.1) bl.2
        rw [hop] at hslot
        refine .inr ⟨address, 4, interwork, by simp only [if_neg hpc, hslot], by decide,
          fun mem => ?_⟩
        rw [taken_loadMultiple hload hlist, if_neg hpc, hop, hslot]
        rfl
  | TBB =>
    cases htable : tableBranchAddress insn.operands regs with
    | ok bi => exact .inr ⟨_, 1, _, rfl, by decide, fun mem => taken_TBB hop htable next mem⟩
    | err e => exact absurd htable (tableBranchAddress_ne_err _ _ e)
    | panic => exact .inl ⟨rfl, .panic, by simp, fun mem => by simp [taken, hop, htable]⟩
  | TBH =>
    cases htable : tableBranchAddress insn.operands regs with
    | ok bi => exact .inr ⟨_, 2, _, rfl, by decide, fun mem => taken_TBH hop htable next mem⟩
    | err e => exact absurd htable (tableBranchAddress_ne_err _ _ e)
    | panic => exact .inl ⟨rfl, .panic, by simp, fun mem => by simp [taken, hop, htable]⟩
  | other => exact .inl ⟨rfl, .ok next, by simp, fun mem => by simp only [taken, hop]⟩
  | B | BL | BLX | BX | BXJ =>
    refine .inl ⟨rfl, taken insn next regs fun _ => none, fun e => ?_, fun mem => ?_⟩
    · simp only [taken, hop]
      split <;> simp
    · simp only [taken, hop]
  | CBZ | CBNZ =>
    refine .inl ⟨rfl, taken insn next regs fun _ => none, fun e => ?_, fun mem => ?_⟩
    · simp only [taken, hop]
      split
      · split <;> simp
      · simp
    · simp only [taken, hop]
  | _ =>
    -- a data-processing instruction
    refine .inl ⟨rfl, taken insn next regs fun _ => none, fun e => ?_, fun mem => ?_⟩
    · simp only [taken, hop]
      split
      · exact Outcome.bind_ne_err (evalAlu_ne_err _ _ _) (fun target e => by simp) e
      · simp
    · simp only [taken, hop]

/-- **Without a data read** the answer is the same in every memory. -/
theorem taken_of_noDataRead {insn : Instruction} {regs : RegContext}
    (h : dataRead insn regs = none) (next : Target) (mem mem' : UserMem) :
    taken insn next regs mem = taken insn next regs mem' := by
  obtain ⟨-, result, -, hresult⟩ | ⟨address, n, -, hdata, -⟩ := taken_cases insn regs next
  · rw [hresult, hresult]
  · rw [h] at hdata
    exact absurd hdata (by simp)

/-- **With a data read** the answer is a function of what is read, or `MemoryRead`. -/
theorem taken_of_dataRead {insn : Instruction} {regs : RegContext} {address : U32} {n : Nat}
    (h : dataRead insn regs = some (address, n)) (next : Target) :
    ∃ answer : U32 → Target, ∀ mem,
      taken insn next regs mem = readLe mem n address >>= fun value => .ok (answer value) := by
  obtain ⟨hnone, -⟩ | ⟨address', n', answer, hdata, -, hanswer⟩ := taken_cases insn regs next
  · rw [h] at hnone
    exact absurd hnone (by simp)
  · obtain ⟨rfl, rfl⟩ := Prod.mk.inj (Option.some.inj (h.symm.trans hdata))
    exact ⟨answer, hanswer⟩

/-- The read of a load into the program counter. -/
theorem dataRead_load {insn : Instruction} (hop : insn.opcode = .LDR ∨ insn.opcode = .LDRT)
    (hpc : isPcDestination (insn.operands 0) = true) (regs : RegContext) :
    dataRead insn regs =
      match effectiveAddress (insn.operands 1) regs with
      | .ok address => some (address, 4)
      | _ => none := by
  unfold dataRead
  obtain hop | hop := hop
  · simp only [hop, hpc, if_true]
  · simp only [hop, hpc, if_true]

/-- The read of a load-multiple. -/
theorem dataRead_loadMultiple {insn : Instruction} (hop : IsLoadMultiple insn.opcode) {base : Reg}
    {list : U16} (hlist : baseAndList insn = .ok (base, list)) (regs : RegContext) :
    dataRead insn regs =
      if list &&& (1#16 <<< 15) = 0#16 then none
      else
        match pcSlot insn.opcode (regs.reg base) list with
        | .ok address => some (address, 4)
        | _ => none := by
  unfold dataRead
  obtain ⟨add, pre, wback, usermode, hop⟩ | hop := hop
  · simp only [hop, hlist]
  · simp only [hop, hlist]

/-- The word at an address as a branch target, `MemoryRead` where it cannot be read. -/
def loadedTarget (mem : UserMem) (address : U32) : Outcome NextPcError Target :=
  match ByteMem.read mem address 4 with
  | none => .err .memoryRead
  | some bytes => .ok (interwork (fromLeBytes bytes))

theorem loadedTarget_ne_panic (mem : UserMem) (address : U32) :
    loadedTarget mem address ≠ .panic := by
  unfold loadedTarget
  split <;> exact nofun

theorem readU32_interwork (mem : UserMem) (address : U32) :
    (readU32 mem address >>= fun target => .ok (interwork target)) = loadedTarget mem address := by
  unfold readU32 readLe loadedTarget
  cases ByteMem.read mem address 4 <;> rfl

/-! ## Load multiple -/

/-- The instruction loads the registers of a list, upwards or downwards, before or after the base.
    `POP` is upwards, after, from the stack pointer; its list is its only operand, or stands behind
    the base like that of `LDM`. -/
inductive LoadsList (insn : Instruction) : Bool → Bool → Reg → U16 → Prop
  | ldm {increment before wback usermode : Bool} {base : Reg} {list : U16}
      (hop : insn.opcode = .LDM increment before wback usermode)
      (hbase : insn.operands 0 = .reg base ∨ ∃ wb, insn.operands 0 = .regWBack base wb)
      (hlist : insn.operands 1 = .regList list) : LoadsList insn increment before base list
  | pop {list : U16} (hop : insn.opcode = .POP) (hlist : insn.operands 0 = .regList list)
      (hlast : insn.operands 1 = .nothing) : LoadsList insn true false 13 list
  | popBehind {list : U16} (hop : insn.opcode = .POP)
      (hbase : ∀ r, (insn.operands 0 = .reg r ∨ ∃ wb, insn.operands 0 = .regWBack r wb) → r = 13)
      (hlist : insn.operands 1 = .regList list) : LoadsList insn true false 13 list

/-- The answer is the word that the loop loads the program counter from, read there and nowhere
    else, or the fall-through where the program counter is not in the list. -/
structure LoadsPcSlot (decoder : InstDecoder) (insn : Instruction) (regs : RegContext)
    (mem : UserMem) (increment before : Bool) (base : Reg) (list : U16) : Prop where
  loads : list.getLsbD 15 = true → ∃ address,
    (loadMultiple increment before (regs.reg base) list).lookup 15 = some address ∧
      dataRead insn regs = some (address, 4) ∧ nextPc decoder regs mem = loadedTarget mem address
  skips : list.getLsbD 15 = false →
    dataRead insn regs = none ∧
      nextPc decoder regs mem = .ok (fallthroughOf insn (insnAddr regs))

/-- The registers below the program counter, as `next_pc` counts them. -/
theorem countOnes_mask (list : U16) :
    countOnes (list &&& 0x7FFF#16) =
      BitVec.ofNat 32 ((List.range 15).countP fun i => list.getLsbD i) := by
  have hlow : ∀ i ∈ List.range 15, (list &&& 0x7FFF#16).getLsbD i = list.getLsbD i := by
    intro i hi
    have hone : ∀ j ∈ List.range 15, (0x7FFF#16).getLsbD j = true := by decide
    rw [BitVec.getLsbD_and, hone i hi, Bool.and_true]
  have hlast : (list &&& 0x7FFF#16).getLsbD 15 = false := by
    rw [BitVec.getLsbD_and]
    exact Bool.and_false _
  rw [countOnes, List.range_succ, List.countP_append, List.countP_singleton, hlast,
    List.countP_congr fun i hi => by rw [hlow i hi]]
  rfl

/-- The bit test of the source. -/
theorem and_bit15_eq_zero_iff (list : U16) :
    list &&& (1#16 <<< 15) = 0#16 ↔ list.getLsbD 15 = false := by
  have htop : (1#16 <<< 15 : U16) = BitVec.twoPow 16 15 := rfl
  rw [htop, BitVec.and_twoPow]
  cases list.getLsbD 15 with
  | true => exact ⟨fun h => absurd h (by decide), nofun⟩
  | false => exact ⟨fun _ => rfl, fun _ => rfl⟩

/-- The closed form of `next_pc` is where the loop loads the last register. -/
theorem pcSlot_eq_loop {insn : Instruction} {increment before : Bool} {base : Reg} {list : U16}
    (hloads : LoadsList insn increment before base list) (hpc : list.getLsbD 15 = true)
    (baseAddr : U32) :
    pcSlot insn.opcode baseAddr list =
      .ok (startAddress increment before baseAddr list +
        4#32 * BitVec.ofNat 32 ((List.range 15).countP fun i => list.getLsbD i)) := by
  have htotal : countOnes list =
      BitVec.ofNat 32 ((List.range 15).countP fun i => list.getLsbD i) + 1#32 := by
    rw [← BitVec.ofNat_add, ← bitCount_succ list hpc]
    rfl
  unfold pcSlot
  rw [countOnes_mask, htotal]
  unfold startAddress
  rw [bitCount_succ list hpc, BitVec.ofNat_add]
  generalize BitVec.ofNat 32 ((List.range 15).countP fun i => list.getLsbD i) = below
  have hone : BitVec.ofNat 32 1 = (1 : U32) := rfl
  have hfour : BitVec.ofNat 32 4 = (4 : U32) := rfl
  rw [hone, hfour]
  cases hloads with
  | ldm hop =>
    rw [hop]
    cases increment <;> cases before <;> refine congrArg Outcome.ok ?_
    · ring
    · ring
    · ring
    · ring
  | pop hop | popBehind hop =>
    rw [hop]
    refine congrArg Outcome.ok ?_
    ring

/-- The opcode, the base and the list, as `next_pc` takes them apart. -/
theorem LoadsList.isLoadMultiple {insn : Instruction} {increment before : Bool} {base : Reg}
    {list : U16} (hloads : LoadsList insn increment before base list) :
    IsLoadMultiple insn.opcode := by
  cases hloads with
  | ldm hop => exact .inl ⟨_, _, _, _, hop⟩
  | pop hop | popBehind hop => exact .inr hop

theorem LoadsList.baseAndList {insn : Instruction} {increment before : Bool} {base : Reg}
    {list : U16} (hloads : LoadsList insn increment before base list)
    (hsecond : insn.operands 1 = .regList list) : baseAndList insn = .ok (base, list) := by
  unfold ArmNextPc.baseAndList
  cases hloads with
  | ldm _ hbase hlist =>
    rw [hlist]
    obtain hreg | ⟨wb, hreg⟩ := hbase <;> rw [hreg]
  | pop hop hlist hlast =>
    rw [hlast] at hsecond
    exact nomatch hsecond
  | popBehind hop hbase hlist =>
    rw [hlist, hop]
    cases hreg : insn.operands 0 with
    | reg r => rw [hbase r (.inl hreg)]
    | regWBack r wb => rw [hbase r (.inr ⟨wb, hreg⟩)]
    | _ => rfl

/-- A list that is not the second operand is not found. -/
theorem LoadsList.baseAndList_panic {insn : Instruction} {increment before : Bool} {base : Reg}
    {list : U16} (hloads : LoadsList insn increment before base list)
    (hsecond : insn.operands 1 ≠ .regList list) : ArmNextPc.baseAndList insn = .panic := by
  rw [baseAndList_eq_panic_iff]
  cases hloads with
  | ldm _ _ hlist => exact absurd hlist hsecond
  | popBehind _ _ hlist => exact absurd hlist hsecond
  | pop hop hlist hlast =>
    rw [hlast]
    exact fun h => Bool.false_ne_true h.1

/-- With the list in the second operand, `next_pc` loads the slot of the loop. -/
theorem loadsPcSlot_of_second {decoder : InstDecoder} {regs : RegContext} {mem : UserMem}
    {bytes : List U8} {insn : Instruction} {increment before : Bool} {base : Reg} {list : U16}
    (hread : ByteMem.read mem (insnAddr regs) 4 = some bytes)
    (hdecode : decoder regs.thumb bytes = .ok insn) (hcond : evalCond insn.condition regs = true)
    (hloads : LoadsList insn increment before base list)
    (hsecond : insn.operands 1 = .regList list) :
    LoadsPcSlot decoder insn regs mem increment before base list := by
  have hop := hloads.isLoadMultiple
  have hlist := hloads.baseAndList hsecond
  have hdata := dataRead_loadMultiple hop hlist regs
  have hnext := nextPc_taken hread hdecode hcond
  rw [taken_loadMultiple hop hlist] at hnext
  constructor
  · intro hpc
    have hbit : ¬ list &&& (1#16 <<< 15) = 0#16 := by
      rw [and_bit15_eq_zero_iff, hpc]
      exact Bool.true_eq_false_eq_False
    rw [if_neg hbit, pcSlot_eq_loop hloads hpc] at hdata hnext
    rw [Outcome.ok_bind, readU32_interwork] at hnext
    exact ⟨_, by rw [loadMultiple_last, if_pos hpc], hdata, hnext⟩
  · intro hpc
    have hbit := (and_bit15_eq_zero_iff list).mpr hpc
    rw [if_pos hbit] at hdata hnext
    exact ⟨hdata, hnext⟩

/-- **A load-multiple** is predicted by the word its loop loads the program counter from, or as the
    fall-through, exactly when its list is the second operand. -/
theorem nextPc_loadMultiple_iff (decoder : InstDecoder) (regs : RegContext) (mem : UserMem)
    (bytes : List U8) (insn : Instruction) (increment before : Bool) (base : Reg) (list : U16)
    (hread : ByteMem.read mem (insnAddr regs) 4 = some bytes)
    (hdecode : decoder regs.thumb bytes = .ok insn)
    (hcond : evalCond insn.condition regs = true)
    (hloads : LoadsList insn increment before base list) :
    LoadsPcSlot decoder insn regs mem increment before base list ↔
      insn.operands 1 = .regList list := by
  constructor
  · intro hslot
    by_contra hsecond
    -- the list is not found, and the arm panics with or without a program counter in it
    have hpanic : nextPc decoder regs mem = .panic := by
      rw [nextPc_taken hread hdecode hcond, taken_loadMultiple_eq_panic_iff hloads.isLoadMultiple]
      exact hloads.baseAndList_panic hsecond
    cases hpc : list.getLsbD 15 with
    | true =>
      obtain ⟨address, -, -, hnext⟩ := hslot.loads hpc
      rw [hpanic] at hnext
      exact loadedTarget_ne_panic mem address hnext.symm
    | false =>
      obtain ⟨-, hnext⟩ := hslot.skips hpc
      rw [hpanic] at hnext
      exact nomatch hnext
  · intro hsecond
    exact loadsPcSlot_of_second hread hdecode hcond hloads hsecond

/-- `ldmda r0, {r1, pc}`. -/
def ldmdaR0 : Instruction :=
  ⟨.AL, .LDM false false false false,
    fun i => if i = 0 then .reg 0 else if i = 1 then .regList 0x8002#16 else .nothing, false, true⟩

theorem nextPc_loadMultiple_iff_ldmda :
    LoadsPcSlot (knowing [0x02#8, 0x80#8, 0x10#8, 0xE8#8] ldmdaR0) ldmdaR0
      (standingAt 0x1000#32 false 0x2000#32 0#32)
      (textAt 0x1000#32 [0x02#8, 0x80#8, 0x10#8, 0xE8#8]) false false 0 0x8002#16 :=
  (nextPc_loadMultiple_iff (knowing [0x02#8, 0x80#8, 0x10#8, 0xE8#8] ldmdaR0)
    (standingAt 0x1000#32 false 0x2000#32 0#32) (textAt 0x1000#32 [0x02#8, 0x80#8, 0x10#8, 0xE8#8])
    [0x02#8, 0x80#8, 0x10#8, 0xE8#8] ldmdaR0 false false 0 0x8002#16 (by decide) rfl rfl
    (.ldm rfl (.inl rfl) rfl)).mpr rfl

/-- `pop {r4, pc}` in Thumb state. -/
def popR4Pc : Instruction :=
  ⟨.AL, .POP, fun i => if i = 0 then .regList 0x8010#16 else .nothing, true, false⟩

/-- **`pop {r4, pc}`**, with nothing but its list, panics. -/
theorem nextPc_not_loadsPcSlot :
    ¬ ∀ (decoder : InstDecoder) (regs : RegContext) (mem : UserMem) (bytes : List U8)
      (insn : Instruction) (increment before : Bool) (base : Reg) (list : U16),
      ByteMem.read mem (insnAddr regs) 4 = some bytes → decoder regs.thumb bytes = .ok insn →
      evalCond insn.condition regs = true → LoadsList insn increment before base list →
      LoadsPcSlot decoder insn regs mem increment before base list := by
  intro hclaim
  have hslot := hclaim (knowing [0x10#8, 0xBD#8] popR4Pc) (standingAt 0x1000#32 true 0#32 0#32)
    (textAt 0x1000#32 [0x10#8, 0xBD#8]) [0x10#8, 0xBD#8, 0#8, 0#8] popR4Pc true false 13 0x8010#16
    (by decide) rfl rfl (.pop rfl rfl rfl)
  obtain ⟨address, -, hdata, -⟩ := hslot.loads (by decide)
  exact nomatch hdata

/-! ## Loads -/

/-- The base register of a plain, immediate-offset or post-indexed dereference. -/
def addressBase : Operand → Option Reg
  | .regDeref base | .regDerefPreindexOffset base _ _ _ | .regDerefPostindexOffset base _ _ _ =>
    some base
  | _ => none

/-- The value of a base register; the program counter is aligned. -/
def archBase (base : Reg) (regs : RegContext) : U32 :=
  if base.val = 15 then align4 regs.pc else regs.reg base

/-- The architectural address of a dereference. -/
def archAddress (operand : Operand) (regs : RegContext) : Option U32 :=
  match operand with
  | .regDeref base => some (archBase base regs)
  | .regDerefPreindexOffset base offset add _ =>
    if add then some (archBase base regs + offset.setWidth 32)
    else some (archBase base regs - offset.setWidth 32)
  | .regDerefPostindexOffset base _ _ _ => some (archBase base regs)
  | _ => none

/-- The load reads the word at its architectural address and goes there. -/
def FollowsLoad (decoder : InstDecoder) (insn : Instruction) (regs : RegContext) (mem : UserMem) :
    Prop :=
  ∃ address, archAddress (insn.operands 1) regs = some address ∧
    dataRead insn regs = some (address, 4) ∧ nextPc decoder regs mem = loadedTarget mem address

theorem reg_of_val_eq_15 {base : Reg} (h : base.val = 15) (regs : RegContext) :
    regs.reg base = regs.pc := by
  rw [RegContext.reg, dif_neg (by omega), if_neg (by omega), if_neg (by omega)]

/-- The base of `next_pc` is the architecture's unless it is a misaligned program counter. -/
theorem archBase_eq_iff (base : Reg) (regs : RegContext) :
    regs.reg base = archBase base regs ↔ (base.val = 15 → regs.pc &&& 3#32 = 0#32) := by
  unfold archBase
  by_cases hpc : base.val = 15
  · rw [if_pos hpc, reg_of_val_eq_15 hpc, eq_comm, align4_eq_iff]
    exact ⟨fun h _ => h, fun h => h hpc⟩
  · rw [if_neg hpc]
    exact ⟨fun _ h => absurd h hpc, fun _ => rfl⟩

/-- `effective_address` is the architectural address exactly when its base is. -/
theorem effectiveAddress_eq_iff {operand : Operand} {base : Reg}
    (hbase : addressBase operand = some base) (regs : RegContext) :
    (∃ address, archAddress operand regs = some address ∧
      effectiveAddress operand regs = .ok address) ↔ regs.reg base = archBase base regs := by
  cases operand with
  | regDeref r =>
    obtain rfl := Option.some.inj hbase
    simp [archAddress, effectiveAddress, eq_comm]
  | regDerefPreindexOffset r offset add wback =>
    obtain rfl := Option.some.inj hbase
    cases add <;> simp [archAddress, effectiveAddress, eq_comm]
  | regDerefPostindexOffset r offset add wback =>
    obtain rfl := Option.some.inj hbase
    simp [archAddress, effectiveAddress, eq_comm]
  | _ => exact absurd hbase (by simp [addressBase])

/-- A dereference of these forms has an address. -/
theorem effectiveAddress_ok {operand : Operand} {base : Reg}
    (hbase : addressBase operand = some base) (regs : RegContext) :
    ∃ address, effectiveAddress operand regs = .ok address := by
  cases operand with
  | regDeref r => exact ⟨_, rfl⟩
  | regDerefPreindexOffset r offset add wback => cases add <;> exact ⟨_, rfl⟩
  | regDerefPostindexOffset r offset add wback => exact ⟨_, rfl⟩
  | _ => exact absurd hbase (by simp [addressBase])

/-- **A load into the program counter** is predicted by the word at its architectural address,
    unless its base is a program counter that is not a multiple of 4. -/
theorem nextPc_load_iff (decoder : InstDecoder) (regs : RegContext) (mem : UserMem)
    (bytes : List U8) (insn : Instruction) (base : Reg)
    (hread : ByteMem.read mem (insnAddr regs) 4 = some bytes)
    (hdecode : decoder regs.thumb bytes = .ok insn)
    (hcond : evalCond insn.condition regs = true) (hop : insn.opcode = .LDR)
    (hpc : isPcDestination (insn.operands 0) = true)
    (hbase : addressBase (insn.operands 1) = some base) :
    FollowsLoad decoder insn regs mem ↔ (base.val = 15 → regs.pc &&& 3#32 = 0#32) := by
  obtain ⟨address, haddress⟩ := effectiveAddress_ok hbase regs
  have hdata : dataRead insn regs = some (address, 4) := by
    rw [dataRead_load (.inl hop) hpc, haddress]
  have hanswer : nextPc decoder regs mem = loadedTarget mem address := by
    rw [nextPc_taken hread hdecode hcond, taken_load (.inl hop) hpc, haddress, Outcome.ok_bind,
      readU32_interwork]
  rw [← archBase_eq_iff, ← effectiveAddress_eq_iff hbase]
  unfold FollowsLoad
  rw [hdata, hanswer, haddress]
  constructor
  · rintro ⟨a, harch, hsame, _⟩
    exact ⟨a, harch, congrArg Outcome.ok (Prod.mk.inj (Option.some.inj hsame)).1⟩
  · rintro ⟨a, harch, hsame⟩
    obtain rfl := Outcome.ok.inj hsame
    exact ⟨address, harch, rfl, rfl⟩

/-- `ldr.w pc, [pc, #4]` in Thumb state. -/
def ldrPcPc4 : Instruction :=
  ⟨.AL, .LDR, fun i => if i = 0 then .reg 15 else
    if i = 1 then .regDerefPreindexOffset 15 4#16 true false else .nothing, true, true⟩

theorem nextPc_load_iff_ldrPcPc4 :
    FollowsLoad (knowing [0xDF#8, 0xF8#8, 0x04#8, 0xF0#8] ldrPcPc4) ldrPcPc4
      (standingAt 0x1000#32 true 0#32 0#32)
      (textAt 0x1000#32 [0xDF#8, 0xF8#8, 0x04#8, 0xF0#8]) :=
  (nextPc_load_iff (knowing [0xDF#8, 0xF8#8, 0x04#8, 0xF0#8] ldrPcPc4)
    (standingAt 0x1000#32 true 0#32 0#32) (textAt 0x1000#32 [0xDF#8, 0xF8#8, 0x04#8, 0xF0#8])
    [0xDF#8, 0xF8#8, 0x04#8, 0xF0#8] ldrPcPc4 15 (by decide) rfl rfl rfl rfl rfl).mpr
    (fun _ => by decide)

/-- **`ldr.w pc, [pc, #4]` at 0x1002** reads 0x100A, not 0x1008. -/
theorem nextPc_not_followsLoad :
    ¬ ∀ (decoder : InstDecoder) (regs : RegContext) (mem : UserMem) (bytes : List U8)
      (insn : Instruction) (base : Reg), ByteMem.read mem (insnAddr regs) 4 = some bytes →
      decoder regs.thumb bytes = .ok insn → evalCond insn.condition regs = true →
      insn.opcode = .LDR → isPcDestination (insn.operands 0) = true →
      addressBase (insn.operands 1) = some base → FollowsLoad decoder insn regs mem := by
  intro hclaim
  obtain ⟨address, harch, hdata, _⟩ := hclaim (knowing [0xDF#8, 0xF8#8, 0x04#8, 0xF0#8] ldrPcPc4)
    (standingAt 0x1002#32 true 0#32 0#32) (textAt 0x1002#32 [0xDF#8, 0xF8#8, 0x04#8, 0xF0#8])
    [0xDF#8, 0xF8#8, 0x04#8, 0xF0#8] ldrPcPc4 15 (by decide) rfl rfl rfl rfl rfl
  obtain rfl : 0x1008#32 = address := Option.some.inj harch
  exact absurd hdata (by decide)

/-! ## Table branches -/

/-- The entry size of a table branch. -/
def entrySize : Opcode → Nat
  | .TBH => 2
  | _ => 1

/-- The target of a table branch from the entry at an address, `MemoryRead` where it cannot be
    read. -/
def tableTarget (pc : U32) (mem : UserMem) (size : Nat) (address : U32) :
    Outcome NextPcError Target :=
  match ByteMem.read mem address size with
  | none => .err .memoryRead
  | some bytes => .ok (pc + 2#32 * fromLeBytes bytes, true)

/-- The operands of a table branch: the base and the index in two registers or in one dereference;
    by halfwords the dereference has the index one place to the left. -/
inductive TableForm (insn : Instruction) (base index : Reg) : Prop
  | regs (h0 : insn.operands 0 = .reg base) (h1 : insn.operands 1 = .reg index)
  | indexed (add wback : Bool) (h0 : insn.operands 0 = .regDerefPreindexReg base index add wback)
      (h1 : insn.operands 1 = .nothing)
  | doubled (add wback : Bool) (hop : insn.opcode = .TBH)
      (h0 : insn.operands 0 = .regDerefPreindexRegShift base (.regImm index .LSL 1#8) add wback)
      (h1 : insn.operands 1 = .nothing)

/-- The table branch reads the indexed entry and goes on behind its program counter, by twice the
    entry. -/
def PicksEntry (decoder : InstDecoder) (insn : Instruction) (base index : Reg) (regs : RegContext)
    (mem : UserMem) : Prop :=
  let size := entrySize insn.opcode
  let entry := tableEntry size (regs.reg base) (regs.reg index)
  dataRead insn regs = some (entry, size) ∧
    nextPc decoder regs mem = tableTarget regs.pc mem size entry

/-- The second read follows on the first, and they have no byte in common. -/
def ReadsAdjacent (insn : Instruction) (regs regs' : RegContext) : Prop :=
  ∃ address address', dataRead insn regs = some (address, entrySize insn.opcode) ∧
    dataRead insn regs' = some (address', entrySize insn.opcode) ∧
    address' = address + BitVec.ofNat 32 (entrySize insn.opcode) ∧
    Disjoint (ByteMem.range address (entrySize insn.opcode))
      (ByteMem.range address' (entrySize insn.opcode))

theorem shiftLeft_one (x : U32) : x <<< 1 = 2#32 * x := by
  rw [BitVec.shiftLeft_eq_mul_twoPow, BitVec.mul_comm]
  rfl

/-- Two places to the left is one place to the left only where that is 0. -/
theorem shiftLeft_two_eq_iff (x : U32) : x <<< 2 = 2#32 * x ↔ 2#32 * x = 0#32 := by
  have htwice : x <<< 2 = 2#32 * x + 2#32 * x := by
    rw [BitVec.shiftLeft_eq_mul_twoPow, BitVec.mul_comm, ← BitVec.add_mul]
    rfl
  rw [htwice]
  exact add_eq_left

/-- Adding the doubled entry, as `next_pc` does it. -/
theorem readLe_tableTarget (pc : U32) (mem : UserMem) (size : Nat) (address : U32) :
    (readLe mem size address >>= fun offset => .ok (pc + (offset <<< 1), true)) =
      tableTarget pc mem size address := by
  unfold readLe tableTarget
  cases ByteMem.read mem address size with
  | none => rfl
  | some bytes => exact congrArg (fun x => Outcome.ok (pc + x, true)) (shiftLeft_one _)

/-- The registers of a table branch that `table_branch_address` takes apart. -/
theorem TableForm.address {insn : Instruction} {base index : Reg} (hform : TableForm insn base index)
    (hhandled : isTableForm (insn.operands 0) (insn.operands 1) = true) (regs : RegContext) :
    tableBranchAddress insn.operands regs = .ok (regs.reg base, regs.reg index) := by
  cases hform with
  | regs h0 h1 => exact tableBranchAddress_ok (.inl ⟨h0, h1⟩) regs
  | indexed add wback h0 h1 => exact tableBranchAddress_ok (.inr ⟨add, wback, h0, h1⟩) regs
  | doubled add wback hop h0 h1 =>
    rw [h0, h1] at hhandled
    exact absurd hhandled Bool.false_ne_true

/-- By bytes there is no shift to take apart. -/
theorem TableForm.handled_TBB {insn : Instruction} {base index : Reg}
    (hform : TableForm insn base index) (hop : insn.opcode = .TBB) :
    isTableForm (insn.operands 0) (insn.operands 1) = true := by
  cases hform with
  | regs h0 h1 => rw [h0, h1]; rfl
  | indexed add wback h0 h1 => rw [h0, h1]; rfl
  | doubled add wback hop' =>
    rw [hop] at hop'
    exact nomatch hop'

/-- An entry of bytes is the base plus the index. -/
theorem tableEntry_one (base index : U32) : tableEntry 1 base index = base + index := by
  rw [tableEntry, BitVec.one_mul]

/-- What a table branch reads: the entry by bytes; by halfwords, at four times the index, or
    nothing. -/
theorem dataRead_TBB {insn : Instruction} {base index : Reg} (hform : TableForm insn base index)
    (hop : insn.opcode = .TBB) (regs : RegContext) :
    dataRead insn regs = some (tableEntry 1 (regs.reg base) (regs.reg index), 1) := by
  simp only [dataRead, hop, hform.address (hform.handled_TBB hop), tableEntry_one]

theorem dataRead_TBH {insn : Instruction} {base index : Reg} (hform : TableForm insn base index)
    (hop : insn.opcode = .TBH) (regs : RegContext) :
    dataRead insn regs =
      if isTableForm (insn.operands 0) (insn.operands 1) then
        some (regs.reg base + (regs.reg index <<< 2), 2)
      else none := by
  cases hhandled : isTableForm (insn.operands 0) (insn.operands 1) with
  | true => simp only [dataRead, hop, hform.address hhandled, if_true]
  | false =>
    have hpanic := (tableBranchAddress_eq_panic_iff insn.operands regs).mpr hhandled
    simp only [dataRead, hop, hpanic, Bool.false_eq_true, if_false]

/-- Where its operands are taken apart, a table branch answers by the entry it reads. -/
theorem nextPc_table {decoder : InstDecoder} {regs : RegContext} {mem : UserMem} {bytes : List U8}
    {insn : Instruction} {base index : Reg}
    (hread : ByteMem.read mem (insnAddr regs) 4 = some bytes)
    (hdecode : decoder regs.thumb bytes = .ok insn) (hset : insn.thumb = true)
    (hcond : evalCond insn.condition regs = true)
    (hop : insn.opcode = .TBB ∨ insn.opcode = .TBH) (hform : TableForm insn base index)
    (hhandled : isTableForm (insn.operands 0) (insn.operands 1) = true) :
    ∃ address, dataRead insn regs = some (address, entrySize insn.opcode) ∧
      nextPc decoder regs mem = tableTarget regs.pc mem (entrySize insn.opcode) address := by
  have htable := hform.address hhandled regs
  obtain hop | hop := hop
  · refine ⟨_, by rw [dataRead_TBB hform hop, hop]; rfl, ?_⟩
    rw [nextPc_taken hread hdecode hcond, taken_TBB hop htable, hset, hop, tableEntry_one]
    exact readLe_tableTarget _ _ _ _
  · refine ⟨_, by rw [dataRead_TBH hform hop, if_pos hhandled, hop]; rfl, ?_⟩
    rw [nextPc_taken hread hdecode hcond, taken_TBH hop htable, hset, hop]
    exact readLe_tableTarget _ _ _ _

/-- A table branch picks the entry exactly when its operands are taken apart and the address read is
    the entry's. -/
theorem picksEntry_iff {decoder : InstDecoder} {regs : RegContext} {mem : UserMem}
    {bytes : List U8} {insn : Instruction} {base index : Reg}
    (hread : ByteMem.read mem (insnAddr regs) 4 = some bytes)
    (hdecode : decoder regs.thumb bytes = .ok insn) (hset : insn.thumb = true)
    (hcond : evalCond insn.condition regs = true)
    (hop : insn.opcode = .TBB ∨ insn.opcode = .TBH) (hform : TableForm insn base index) :
    PicksEntry decoder insn base index regs mem ↔
      dataRead insn regs =
        some (tableEntry (entrySize insn.opcode) (regs.reg base) (regs.reg index),
          entrySize insn.opcode) := by
  refine ⟨fun h => h.1, fun hdata => ⟨hdata, ?_⟩⟩
  cases hhandled : isTableForm (insn.operands 0) (insn.operands 1) with
  | false =>
    -- nothing is read where the operands are not taken apart
    obtain hop | hop := hop
    · rw [hform.handled_TBB hop] at hhandled
      exact nomatch hhandled
    · rw [dataRead_TBH hform hop, hhandled, if_neg Bool.false_ne_true] at hdata
      exact nomatch hdata
  | true =>
    obtain ⟨address, hdata', hnext⟩ := nextPc_table hread hdecode hset hcond hop hform hhandled
    obtain rfl := (Prod.mk.inj (Option.some.inj (hdata.symm.trans hdata'))).1
    exact hnext

/-- Consecutive bytes. -/
theorem range_succ_disjoint (address : U32) :
    Disjoint (ByteMem.range address 1) (ByteMem.range (address + 1#32) 1) := by
  refine ByteMem.range_disjoint ?_ ?_
  · rw [BitVec.add_comm, BitVec.add_sub_cancel]
    decide
  · have hback : address - (address + 1#32) = -1#32 := by bv_omega
    rw [hback]
    decide

/-- The entries of two consecutive indices are read next to each other by bytes only. -/
theorem readsAdjacent_iff {insn : Instruction} {base index : Reg} {regs regs' : RegContext}
    (hop : insn.opcode = .TBB ∨ insn.opcode = .TBH) (hform : TableForm insn base index)
    (hbase : regs'.reg base = regs.reg base) (hindex : regs'.reg index = regs.reg index + 1#32) :
    ReadsAdjacent insn regs regs' ↔ insn.opcode = .TBB := by
  obtain hop | hop := hop
  · have hsize : entrySize insn.opcode = 1 := by rw [hop]; rfl
    have hdata' := dataRead_TBB hform hop regs'
    rw [hbase, hindex, tableEntry_succ] at hdata'
    rw [ReadsAdjacent, hsize]
    exact iff_of_true ⟨_, _, dataRead_TBB hform hop regs, hdata', rfl, range_succ_disjoint _⟩ hop
  · refine iff_of_false ?_ (by rw [hop]; exact nofun)
    rintro ⟨address, address', hdata, hdata', hnext, -⟩
    rw [dataRead_TBH hform hop] at hdata hdata'
    split at hdata
    · next hhandled =>
      rw [if_pos hhandled, hbase, hindex] at hdata'
      obtain rfl := (Prod.mk.inj (Option.some.inj hdata)).1
      obtain rfl := (Prod.mk.inj (Option.some.inj hdata')).1
      -- the second is four bytes behind, not two
      have hsize : entrySize insn.opcode = 2 := by rw [hop]; rfl
      rw [hsize, BitVec.add_assoc, BitVec.add_right_inj, BitVec.shiftLeft_add_distrib,
        BitVec.add_right_inj] at hnext
      exact absurd hnext (by decide)
    · exact nomatch hdata

/-- **A table branch** picks the indexed entry by bytes; by halfwords only where its operands are
    taken apart, which a shifted index is not, and where the doubled index is 0, since `next_pc`
    scales it by 4.  Consecutive entries are read next to each other by bytes only. -/
theorem nextPc_table_iff (decoder : InstDecoder) (regs : RegContext) (mem : UserMem)
    (bytes : List U8) (insn : Instruction) (base index : Reg)
    (hread : ByteMem.read mem (insnAddr regs) 4 = some bytes)
    (hdecode : decoder regs.thumb bytes = .ok insn) (hset : insn.thumb = true)
    (hcond : evalCond insn.condition regs = true)
    (hop : insn.opcode = .TBB ∨ insn.opcode = .TBH) (hform : TableForm insn base index) :
    (PicksEntry decoder insn base index regs mem ↔
      (insn.opcode = .TBH → isTableForm (insn.operands 0) (insn.operands 1) = true ∧
        2#32 * regs.reg index = 0#32)) ∧
      ∀ regs' : RegContext, regs'.reg base = regs.reg base →
        regs'.reg index = regs.reg index + 1#32 →
        (ReadsAdjacent insn regs regs' ↔ insn.opcode = .TBB) := by
  refine ⟨?_, fun regs' hbase hindex => readsAdjacent_iff hop hform hbase hindex⟩
  rw [picksEntry_iff hread hdecode hset hcond hop hform]
  obtain hop | hop := hop
  · refine iff_of_true ?_ fun h => absurd (hop.symm.trans h) (by decide)
    rw [dataRead_TBB hform hop, hop]
    rfl
  · have hsize : entrySize insn.opcode = 2 := by rw [hop]; rfl
    rw [dataRead_TBH hform hop, hsize, tableEntry]
    cases isTableForm (insn.operands 0) (insn.operands 1) with
    | false => simp [hop]
    | true =>
      rw [if_pos rfl, Option.some.injEq, Prod.mk.injEq, BitVec.add_right_inj, shiftLeft_two_eq_iff]
      simp [hop]

/-- `tbb [r0, r1]` and `tbh [r0, r1, lsl #1]`. -/
def tbbR0R1 : Instruction :=
  ⟨.AL, .TBB, fun i => if i = 0 then .regDerefPreindexReg 0 1 true false else .nothing, true, true⟩
def tbhR0R1 : Instruction :=
  ⟨.AL, .TBH, fun i =>
    if i = 0 then .regDerefPreindexRegShift 0 (.regImm 1 .LSL 1#8) true false else .nothing,
    true, true⟩

theorem nextPc_table_iff_tbb :
    PicksEntry (knowing [0xD0#8, 0xE8#8, 0x01#8, 0xF0#8] tbbR0R1) tbbR0R1 0 1
      (standingAt 0x1000#32 true 0x2000#32 3#32)
      (textAt 0x1000#32 [0xD0#8, 0xE8#8, 0x01#8, 0xF0#8]) ∧
      ReadsAdjacent tbbR0R1 (standingAt 0x1000#32 true 0x2000#32 3#32)
        (standingAt 0x1000#32 true 0x2000#32 4#32) := by
  have htable := nextPc_table_iff (knowing [0xD0#8, 0xE8#8, 0x01#8, 0xF0#8] tbbR0R1)
    (standingAt 0x1000#32 true 0x2000#32 3#32)
    (textAt 0x1000#32 [0xD0#8, 0xE8#8, 0x01#8, 0xF0#8]) [0xD0#8, 0xE8#8, 0x01#8, 0xF0#8]
    tbbR0R1 0 1 (by decide) rfl rfl rfl (.inl rfl) (.indexed true false rfl rfl)
  exact ⟨htable.1.mpr nofun,
    (htable.2 (standingAt 0x1000#32 true 0x2000#32 4#32) rfl (by decide)).mpr rfl⟩

/-- **`tbh [r0, r1, lsl #1]`** panics, whatever the index. -/
theorem nextPc_not_picksEntry :
    ¬ ∀ (decoder : InstDecoder) (regs : RegContext) (mem : UserMem) (bytes : List U8)
      (insn : Instruction) (base index : Reg), ByteMem.read mem (insnAddr regs) 4 = some bytes →
      decoder regs.thumb bytes = .ok insn → insn.thumb = true →
      evalCond insn.condition regs = true → insn.opcode = .TBB ∨ insn.opcode = .TBH →
      TableForm insn base index → PicksEntry decoder insn base index regs mem := by
  intro hclaim
  have hpicks := hclaim (knowing [0xD0#8, 0xE8#8, 0x11#8, 0xF0#8] tbhR0R1)
    (standingAt 0x1000#32 true 0x2000#32 1#32)
    (textAt 0x1000#32 [0xD0#8, 0xE8#8, 0x11#8, 0xF0#8]) [0xD0#8, 0xE8#8, 0x11#8, 0xF0#8]
    tbhR0R1 0 1 (by decide) rfl rfl rfl (.inr rfl) (.doubled true false rfl rfl rfl)
  exact absurd hpicks.1 (by decide)

end VitaGdb.ArmNextPc
