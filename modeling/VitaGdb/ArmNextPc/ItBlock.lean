/-
  Thumb IT blocks: the condition that is in the CPSR and not in the instruction.

  Inside an IT block an instruction carries no condition of its own; the CPSR's ITSTATE field does,
  split over bits 15:10 and 26:25.  `Writes` sorts the instructions that may stand there by how they
  write the program counter, `archTarget` is where the architecture takes each of them, and
  `itResult` is that target when the IT condition holds, the next instruction when it does not.

  `nextPc` evaluates the condition of the instruction (`evalCond`), which the decoder reports as
  "always" here, and never looks at ITSTATE.  So in a slot whose condition fails it is right exactly
  where its own target is the next instruction (`GoesOn`), which a taken `BX` is not
  (`nextPc_not_followsIt`); where the condition holds it is right as far as its arms are
  (`TakenRight`).
-/
import VitaGdb.ArmNextPc.Footprint

namespace VitaGdb.ArmNextPc

open ArmArch

/-! ## ITSTATE -/

/-- ITSTATE: CPSR[15:10] over CPSR[26:25]. -/
def itState (cpsr : U32) : BitVec 8 := cpsr.extractLsb' 10 6 ++ cpsr.extractLsb' 25 2

/-- The processor is inside an IT block: the mask in ITSTATE[3:0] is not used up. -/
def itActive (cpsr : U32) : Bool := itState cpsr &&& 0x0F#8 != 0#8

/-- The condition of the current slot: ITSTATE[7:4]. -/
def itCondition (cpsr : U32) : ConditionCode :=
  match ((itState cpsr) >>> 4).toNat with
  | 0 => .EQ | 1 => .NE | 2 => .HS | 3 => .LO | 4 => .MI | 5 => .PL | 6 => .VS | 7 => .VC
  | 8 => .HI | 9 => .LS | 10 => .GE | 11 => .LT | 12 => .GT | 13 => .LE | _ => .AL

/-- The IT condition, where there is one, holds on the flags. -/
def itPassed (regs : RegContext) : Bool :=
  !itActive regs.cpsr || evalCond (itCondition regs.cpsr) regs

/-! ## Instructions in an IT block -/

/-- How an instruction writes the program counter. -/
inductive PcWrite where
  | no
  | branch (offset : I32)
  | exchange (offset : I32)
  | register (r : Reg)
  | result
  | word
  | list (increment before : Bool) (base : Reg) (list : U16)
  | entry (base index : Reg)

/-- The index of an address, added or subtracted. -/
def indexed (add : Bool) (base index : U32) : U32 := if add then base + index else base - index

/-- The architectural address of a load, register offsets included. -/
def loadAddress (operand : Operand) (regs : RegContext) : Option U32 :=
  match operand with
  | .regDerefPreindexReg base index add _ =>
    some (indexed add (archBase base regs) (regs.reg index))
  | .regDerefPreindexRegShift base (.regImm index .LSL amount) add _ =>
    some (indexed add (archBase base regs) (lsl (regs.reg index) amount.toNat))
  | .regDerefPostindexReg base _ _ _ | .regDerefPostindexRegShift base _ _ _ =>
    some (archBase base regs)
  | operand => archAddress operand regs

/-- The instructions that may stand in an IT block, with the operands the architecture gives them.
    `CBZ` and `CBNZ` may not. -/
inductive Writes (insn : Instruction) : PcWrite → Prop
  | noResult (hop : isAluOpcode insn.opcode = true)
      (hpc : isPcDestination (insn.operands 0) = false) : Writes insn .no
  | noWord (hop : insn.opcode = .LDR ∨ insn.opcode = .LDRT)
      (hpc : isPcDestination (insn.operands 0) = false) : Writes insn .no
  | noList {increment before : Bool} {base : Reg} {list : U16}
      (hloads : LoadsList insn increment before base list) (hpc : list.getLsbD 15 = false) :
      Writes insn .no
  | noOther (hop : insn.opcode = .other) : Writes insn .no
  | branch {offset : I32} (hop : insn.opcode = .B ∨ insn.opcode = .BL)
      (h0 : insn.operands 0 = .branchThumbOffset offset) : Writes insn (.branch offset)
  | exchange {offset : I32} (hop : insn.opcode = .BLX)
      (h0 : insn.operands 0 = .branchThumbOffset offset) : Writes insn (.exchange offset)
  | register {r : Reg} (hop : insn.opcode = .BX ∨ insn.opcode = .BXJ ∨ insn.opcode = .BLX)
      (h0 : insn.operands 0 = .reg r) : Writes insn (.register r)
  | result (hpc : isPcDestination (insn.operands 0) = true)
      (hresult : ∀ regs, ∃ result, archAlu insn regs = some result) : Writes insn .result
  | word (hop : insn.opcode = .LDR ∨ insn.opcode = .LDRT)
      (hpc : isPcDestination (insn.operands 0) = true)
      (haddr : ∀ regs, ∃ address, loadAddress (insn.operands 1) regs = some address) :
      Writes insn .word
  | list {increment before : Bool} {base : Reg} {list : U16}
      (hloads : LoadsList insn increment before base list) (hpc : list.getLsbD 15 = true) :
      Writes insn (.list increment before base list)
  | entry {base index : Reg} (hop : insn.opcode = .TBB ∨ insn.opcode = .TBH)
      (hform : TableForm insn base index) : Writes insn (.entry base index)

/-- The word at an address as a branch target, `MemoryRead` where it cannot be read; `none` where
    its low bits are unpredictable. -/
def wordTarget (mem : UserMem) (address : U32) : Option (Outcome NextPcError Target) :=
  match ByteMem.read mem address 4 with
  | none => some (.err .memoryRead)
  | some bytes => (bxWritePC (fromLeBytes bytes)).map .ok

/-- Where the word of a register list with the program counter is. -/
def listSlot (increment before : Bool) (baseAddr : U32) (list : U16) : Option U32 :=
  (loadMultiple increment before baseAddr list).lookup 15

/-- Where the architecture takes an instruction, `none` where that is unpredictable.  An offset in
    halfwords counts from the program counter plus `origin`, which is the decoder's. -/
def archTarget (origin : U32) (insn : Instruction) (next : Target) (regs : RegContext)
    (mem : UserMem) : PcWrite → Option (Outcome NextPcError Target)
  | .no => some (.ok next)
  | .branch offset => some (.ok (regs.pc + origin + 2#32 * offset, true))
  | .exchange offset =>
    if offset &&& 1#32 = 0#32 then some (.ok (align4 regs.pc + 2#32 * offset, false)) else none
  | .register r => (bxWritePC (regs.reg r)).map .ok
  | .result => (archAlu insn regs).bind fun result => (aluWritePC true result).map .ok
  | .word => (loadAddress (insn.operands 1) regs).bind (wordTarget mem)
  | .list increment before base list =>
    (listSlot increment before (regs.reg base) list).bind (wordTarget mem)
  | .entry base index =>
    some (tableTarget regs.pc mem (entrySize insn.opcode)
      (tableEntry (entrySize insn.opcode) (regs.reg base) (regs.reg index)))

/-- What an instruction in the current IT slot does. -/
def itResult (origin : U32) (insn : Instruction) (regs : RegContext) (mem : UserMem)
    (write : PcWrite) : Option (Outcome NextPcError Target) :=
  if itPassed regs then archTarget origin insn (fallthroughOf insn (insnAddr regs)) regs mem write
  else some (.ok (fallthroughOf insn (insnAddr regs)))

/-- The answer is what the instruction does, where that is predictable. -/
def FollowsIt (origin : U32) (decoder : InstDecoder) (insn : Instruction) (regs : RegContext)
    (mem : UserMem) (write : PcWrite) : Prop :=
  ∀ result, itResult origin insn regs mem write = some result → nextPc decoder regs mem = result

/-! ## The two conditions -/

/-- The target of `next_pc` is the architecture's, or there is none: its operands are handled,
    offsets count from 4 bytes behind the program counter, an exchanging branch starts at an aligned
    one, a result has bit 1 clear, and what is read a `slip` too far leads to the same target. -/
def TakenRight (origin : U32) (insn : Instruction) (regs : RegContext) (mem : UserMem) :
    PcWrite → Prop
  | .no => unhandledOperands insn = false
  | .branch _ => origin = 4#32
  | .exchange offset => offset &&& 1#32 = 0#32 → regs.pc &&& 3#32 = 0#32
  | .register _ => True
  | .result => ∀ result, archAlu insn regs = some result →
      twoOperands insn = false ∧ result &&& 2#32 = 0#32
  | .word => ∀ address target, loadAddress (insn.operands 1) regs = some address →
      wordTarget mem address = some target →
      isPlainAddress (insn.operands 1) = true ∧
        loadedTarget mem (address + slip insn regs) = target
  | .list increment before base list => ∀ address target,
      listSlot increment before (regs.reg base) list = some address →
      wordTarget mem address = some target → insn.operands 1 = .regList list
  | .entry base index =>
    let entry := tableEntry (entrySize insn.opcode) (regs.reg base) (regs.reg index)
    isTableForm (insn.operands 0) (insn.operands 1) = true ∧
      tableTarget regs.pc mem (entrySize insn.opcode) (entry + slip insn regs) =
        tableTarget regs.pc mem (entrySize insn.opcode) entry

/-- The target of `next_pc` is the next instruction: nothing is written, or an offset, a register, a
    result, a word or an entry happens to lead there. -/
def GoesOn (insn : Instruction) (next : Target) (regs : RegContext) (mem : UserMem) :
    PcWrite → Prop
  | .no => unhandledOperands insn = false
  | .branch offset => regs.pc + 4#32 + 2#32 * offset = next.1
  | .exchange _ => False
  | .register r => interwork (regs.reg r) = next
  | .result => ∃ result, archAlu insn regs = some result ∧
      twoOperands insn = false ∧ result &&& ~~~3#32 = next.1
  | .word => ∃ address, loadAddress (insn.operands 1) regs = some address ∧
      isPlainAddress (insn.operands 1) = true ∧
        loadedTarget mem (address + slip insn regs) = .ok next
  | .list increment before base list => ∃ address,
      listSlot increment before (regs.reg base) list = some address ∧
        insn.operands 1 = .regList list ∧ loadedTarget mem address = .ok next
  | .entry base index =>
    isTableForm (insn.operands 0) (insn.operands 1) = true ∧
      tableTarget regs.pc mem (entrySize insn.opcode)
        (tableEntry (entrySize insn.opcode) (regs.reg base) (regs.reg index) + slip insn regs) =
        .ok next

/-! ## Targets -/

/-- Where a word can be branched to, `next_pc` splits it as the architecture does. -/
theorem interwork_of_bxWritePC {value : U32} {target : Target} (h : bxWritePC value = some target) :
    interwork value = target := by
  unfold bxWritePC at h
  unfold interwork
  split at h
  · next hodd =>
    have hone : value &&& 1#32 = 1#32 := by
      rw [BitVec.and_one_eq_setWidth_ofBool_getLsbD] at hodd ⊢
      cases hbit : value.getLsbD 0 with
      | true => rfl
      | false =>
        rw [hbit] at hodd
        exact absurd rfl hodd
    rw [hone, ← Option.some.inj h]
    rfl
  · next heven =>
    split at h
    · exact nomatch h
    · rw [not_not.mp heven, and_not_of_and_eq_zero (not_not.mp heven), ← Option.some.inj h]
      rfl

theorem loadedTarget_of_wordTarget {mem : UserMem} {address : U32}
    {target : Outcome NextPcError Target} (h : wordTarget mem address = some target) :
    loadedTarget mem address = target := by
  unfold wordTarget at h
  unfold loadedTarget
  cases hread : ByteMem.read mem address 4 with
  | none =>
    rw [hread] at h
    exact Option.some.inj h
  | some bytes =>
    rw [hread] at h
    obtain ⟨t, ht, rfl⟩ := Option.map_eq_some_iff.mp h
    show Outcome.ok (interwork (fromLeBytes bytes)) = .ok t
    rw [interwork_of_bxWritePC ht]

/-- The architecture does not panic. -/
theorem wordTarget_ne_panic (mem : UserMem) (address : U32) :
    wordTarget mem address ≠ some .panic := by
  intro h
  exact loadedTarget_ne_panic mem address (loadedTarget_of_wordTarget h)

theorem tableTarget_ne_panic (pc : U32) (mem : UserMem) (size : Nat) (address : U32) :
    tableTarget pc mem size address ≠ .panic := by
  unfold tableTarget
  split <;> exact nofun

/-- Of a plain address nothing is left to index. -/
theorem loadAddress_of_isPlainAddress {operand : Operand} (h : isPlainAddress operand = true)
    (regs : RegContext) : loadAddress operand regs = archAddress operand regs := by
  cases operand with
  | regDeref base => rfl
  | regDerefPreindexOffset base offset add wback => rfl
  | regDerefPostindexOffset base offset add wback => rfl
  | _ => exact absurd h Bool.false_ne_true

/-! ## `next_pc` in an IT slot -/

/-- The thread is in Thumb state at the instruction, whose own condition is "always". -/
structure InSlot (decoder : InstDecoder) (regs : RegContext) (mem : UserMem) (insn : Instruction) :
    Prop where
  thumb : regs.thumb = true
  fetched : ∃ bytes, ByteMem.read mem (insnAddr regs) 4 = some bytes ∧
    decoder regs.thumb bytes = .ok insn
  set : insn.thumb = true
  always : insn.condition = .AL

section

variable {decoder : InstDecoder} {regs : RegContext} {mem : UserMem} {insn : Instruction}

theorem InSlot.evalCond (hslot : InSlot decoder regs mem insn) :
    ArmNextPc.evalCond insn.condition regs = true := by
  rw [hslot.always]
  rfl

/-- `next_pc` answers what the instruction does, whatever ITSTATE says. -/
theorem InSlot.nextPc_eq (hslot : InSlot decoder regs mem insn) :
    nextPc decoder regs mem = taken insn (fallthroughOf insn (insnAddr regs)) regs mem := by
  obtain ⟨bytes, hread, hdecode⟩ := hslot.fetched
  exact nextPc_taken hread hdecode hslot.evalCond

/-- An instruction that does not write the program counter goes on, if its operands are handled. -/
theorem nextPc_no (hslot : InSlot decoder regs mem insn) (hwrites : Writes insn .no) :
    nextPc decoder regs mem = .ok (fallthroughOf insn (insnAddr regs)) ↔
      unhandledOperands insn = false := by
  have hpanic := taken_eq_panic_iff insn (fallthroughOf insn (insnAddr regs)) regs mem
  have hcases : taken insn (fallthroughOf insn (insnAddr regs)) regs mem =
      .ok (fallthroughOf insn (insnAddr regs)) ∨
      taken insn (fallthroughOf insn (insnAddr regs)) regs mem = .panic := by
    cases hwrites with
    | noResult hop hpc => exact .inl (taken_alu_other hop hpc _ _ _)
    | noWord hop hpc => exact .inl (taken_load_other hop hpc _ _ _)
    | noOther hop => exact .inl (by simp only [taken, hop])
    | @noList increment before base list hloads hpc =>
      by_cases hsecond : insn.operands 1 = .regList list
      · rw [taken_loadMultiple hloads.isLoadMultiple (hloads.baseAndList hsecond),
          if_pos ((and_bit15_eq_zero_iff list).mpr hpc)]
        exact .inl rfl
      · exact .inr ((taken_loadMultiple_eq_panic_iff hloads.isLoadMultiple _ _ _).mpr
          (hloads.baseAndList_panic hsecond))
  rw [hslot.nextPc_eq, ← Bool.not_eq_true, ← hpanic]
  obtain hok | hbad := hcases
  · rw [hok]
    simp
  · rw [hbad]
    simp

theorem nextPc_branch (hslot : InSlot decoder regs mem insn) {offset : I32}
    (hop : insn.opcode = .B ∨ insn.opcode = .BL) (h0 : insn.operands 0 = .branchThumbOffset offset) :
    nextPc decoder regs mem = .ok (regs.pc + 4#32 + 2#32 * offset, true) := by
  rw [hslot.nextPc_eq, ← shiftLeft_one]
  obtain hop | hop := hop
  · simp only [taken, hop, h0, hslot.always, thumbBranchTarget, if_true]
  · simp only [taken, hop, h0, hslot.always, thumbBranchTarget, if_true]

theorem nextPc_exchange (hslot : InSlot decoder regs mem insn) {offset : I32}
    (hop : insn.opcode = .BLX) (h0 : insn.operands 0 = .branchThumbOffset offset) :
    nextPc decoder regs mem = .ok (regs.pc + 2#32 * offset, false) := by
  rw [hslot.nextPc_eq, ← shiftLeft_one]
  simp only [taken, hop, h0]

theorem nextPc_register (hslot : InSlot decoder regs mem insn) {r : Reg}
    (hop : insn.opcode = .BX ∨ insn.opcode = .BXJ ∨ insn.opcode = .BLX)
    (h0 : insn.operands 0 = .reg r) :
    nextPc decoder regs mem = .ok (interwork (regs.reg r)) := by
  rw [hslot.nextPc_eq]
  obtain hop | hop | hop := hop
  · simp only [taken, hop, h0]
  · simp only [taken, hop, h0]
  · simp only [taken, hop, h0]

theorem nextPc_result (hslot : InSlot decoder regs mem insn)
    (hpc : isPcDestination (insn.operands 0) = true) {result : U32}
    (hresult : archAlu insn regs = some result) :
    nextPc decoder regs mem =
      if twoOperands insn then .panic else .ok (result &&& ~~~3#32, true) := by
  obtain ⟨bytes, hread, hdecode⟩ := hslot.fetched
  rw [nextPc_archAlu hread hdecode (hslot.set.trans hslot.thumb.symm) hslot.evalCond hpc hresult,
    hslot.thumb]

/-- A load goes by the word `slip` behind its address, unless the address is indexed. -/
theorem nextPc_word (hslot : InSlot decoder regs mem insn)
    (hop : insn.opcode = .LDR ∨ insn.opcode = .LDRT)
    (hpc : isPcDestination (insn.operands 0) = true) {address : U32}
    (haddr : loadAddress (insn.operands 1) regs = some address) :
    nextPc decoder regs mem =
      if isPlainAddress (insn.operands 1) then loadedTarget mem (address + slip insn regs)
      else .panic := by
  rw [hslot.nextPc_eq, taken_load hop hpc]
  cases hplain : isPlainAddress (insn.operands 1) with
  | false =>
    rw [(effectiveAddress_eq_panic_iff _ regs).mpr hplain, Outcome.panic_bind,
      if_neg Bool.false_ne_true]
  | true =>
    rw [loadAddress_of_isPlainAddress hplain] at haddr
    rw [effectiveAddress_slip hop, haddr]
    dsimp only
    rw [Outcome.ok_bind, readU32_interwork, if_pos rfl]

/-- A register list goes by the word of its loop, if it is the second operand. -/
theorem nextPc_list (hslot : InSlot decoder regs mem insn) {increment before : Bool} {base : Reg}
    {list : U16} (hloads : LoadsList insn increment before base list)
    (hpc : list.getLsbD 15 = true) :
    ∃ address, listSlot increment before (regs.reg base) list = some address ∧
      nextPc decoder regs mem =
        if insn.operands 1 = .regList list then loadedTarget mem address else .panic := by
  obtain ⟨bytes, hread, hdecode⟩ := hslot.fetched
  by_cases hsecond : insn.operands 1 = .regList list
  · obtain ⟨address, haddr, -, hnext⟩ :=
      (loadsPcSlot_of_second hread hdecode hslot.evalCond hloads hsecond).loads hpc
    exact ⟨address, haddr, by rw [hnext, if_pos hsecond]⟩
  · refine ⟨_, by rw [listSlot, loadMultiple_last, if_pos hpc], ?_⟩
    rw [if_neg hsecond, hslot.nextPc_eq, taken_loadMultiple_eq_panic_iff hloads.isLoadMultiple]
    exact hloads.baseAndList_panic hsecond

/-- A table branch goes by the entry `slip` behind its own, if its operands are taken apart. -/
theorem nextPc_entry (hslot : InSlot decoder regs mem insn) {base index : Reg}
    (hop : insn.opcode = .TBB ∨ insn.opcode = .TBH) (hform : TableForm insn base index) :
    nextPc decoder regs mem =
      if isTableForm (insn.operands 0) (insn.operands 1) then
        tableTarget regs.pc mem (entrySize insn.opcode)
          (tableEntry (entrySize insn.opcode) (regs.reg base) (regs.reg index) + slip insn regs)
      else .panic := by
  obtain ⟨bytes, hread, hdecode⟩ := hslot.fetched
  cases hhandled : isTableForm (insn.operands 0) (insn.operands 1) with
  | false =>
    rw [if_neg Bool.false_ne_true, hslot.nextPc_eq, taken_table_eq_panic_iff hop,
      tableBranchAddress_eq_panic_iff]
    exact hhandled
  | true =>
    obtain ⟨address, hdata, hnext⟩ :=
      nextPc_table hread hdecode hslot.set hslot.evalCond hop hform hhandled
    have hloads : loadsFrom insn regs =
        some (tableEntry (entrySize insn.opcode) (regs.reg base) (regs.reg index),
          entrySize insn.opcode) := by
      have htable := hform.address hhandled regs
      obtain hop | hop := hop <;> simp only [loadsFrom, hop, htable] <;> rfl
    rw [dataRead_slip, hloads] at hdata
    obtain rfl := (Prod.mk.inj (Option.some.inj hdata)).1
    rw [hnext, if_pos rfl]

/-- An answer is the one there is to follow. -/
theorem follows_some_iff {x y : Outcome NextPcError Target} :
    (∀ result, some x = some result → y = result) ↔ y = x := by
  simp [eq_comm]

/-- An answer that is the loaded target where the operands are handled, and a panic elsewhere,
    follows what is loaded where it is handled. -/
theorem follows_word_iff {mem : UserMem} {address : U32} {answer : Outcome NextPcError Target}
    {handled : Bool} :
    (∀ result, wordTarget mem address = some result →
        (if handled then answer else .panic) = result) ↔
      ∀ target, wordTarget mem address = some target → handled = true ∧ answer = target := by
  refine forall_congr' fun target => imp_congr_right fun htarget => ?_
  cases handled with
  | true => simp
  | false =>
    refine iff_of_false ?_ (fun h => nomatch h.1)
    rintro rfl
    exact wordTarget_ne_panic mem address htarget

/-- **Where the condition of the slot holds**, the target of `next_pc` is the architecture's. -/
theorem nextPc_archTarget_iff (origin : U32) {write : PcWrite}
    (hslot : InSlot decoder regs mem insn) (hwrites : Writes insn write) :
    (∀ result, archTarget origin insn (fallthroughOf insn (insnAddr regs)) regs mem write =
        some result → nextPc decoder regs mem = result) ↔
      TakenRight origin insn regs mem write := by
  cases write with
  | no =>
    rw [TakenRight, ← nextPc_no hslot hwrites]
    simp [archTarget]
  | branch offset =>
    cases hwrites with
    | branch hop h0 =>
      rw [nextPc_branch hslot hop h0, archTarget, follows_some_iff, Outcome.ok.injEq,
        Prod.mk.injEq, BitVec.add_left_inj, BitVec.add_right_inj]
      exact ⟨fun h => h.1.symm, fun h => ⟨h.symm, rfl⟩⟩
  | exchange offset =>
    cases hwrites with
    | exchange hop h0 =>
      rw [nextPc_exchange hslot hop h0, archTarget, TakenRight]
      split
      · next heven =>
        rw [follows_some_iff, Outcome.ok.injEq, Prod.mk.injEq, BitVec.add_left_inj, eq_comm,
          align4_eq_iff]
        exact ⟨fun h _ => h.1, fun h => ⟨h heven, rfl⟩⟩
      · next hodd => exact iff_of_true nofun fun heven => absurd heven hodd
  | register r =>
    cases hwrites with
    | register hop h0 =>
      rw [nextPc_register hslot hop h0]
      refine iff_of_true (fun result hresult => ?_) trivial
      obtain ⟨target, htarget, rfl⟩ := Option.map_eq_some_iff.mp hresult
      rw [interwork_of_bxWritePC htarget]
  | result =>
    cases hwrites with
    | result hpc hresult =>
      obtain ⟨value, hvalue⟩ := hresult regs
      rw [nextPc_result hslot hpc hvalue, archTarget, TakenRight, hvalue, Option.bind_some,
        aluWritePC, if_pos rfl, Option.map_some, follows_some_iff]
      simp only [Option.some.injEq, forall_eq']
      cases twoOperands insn with
      | true => exact iff_of_false nofun fun h => nomatch h.1
      | false =>
        rw [if_neg Bool.false_ne_true, Outcome.ok.injEq, Prod.mk.injEq, and_not_three_eq_iff]
        exact ⟨fun h => ⟨rfl, h.1⟩, fun h => ⟨h.2, rfl⟩⟩
  | word =>
    cases hwrites with
    | word hop hpc haddr =>
      obtain ⟨address, haddress⟩ := haddr regs
      rw [nextPc_word hslot hop hpc haddress, archTarget, haddress, Option.bind_some,
        follows_word_iff, TakenRight, haddress]
      simp only [Option.some.injEq]
      exact ⟨fun h _ target hsame => hsame ▸ h target, fun h target => h address target rfl⟩
  | list increment before base list =>
    cases hwrites with
    | list hloads hpc =>
      obtain ⟨address, haddress, hnext⟩ := nextPc_list hslot hloads hpc
      have hanswer : nextPc decoder regs mem =
          if decide (insn.operands 1 = .regList list) then loadedTarget mem address else .panic := by
        simpa using hnext
      rw [hanswer, archTarget, haddress, Option.bind_some, follows_word_iff, TakenRight, haddress]
      simp only [Option.some.injEq, decide_eq_true_eq]
      constructor
      · rintro h _ target rfl htarget
        exact (h target htarget).1
      · intro h target htarget
        exact ⟨h address target rfl htarget, loadedTarget_of_wordTarget htarget⟩
  | entry base index =>
    cases hwrites with
    | entry hop hform =>
      rw [nextPc_entry hslot hop hform, archTarget, TakenRight, follows_some_iff]
      cases isTableForm (insn.operands 0) (insn.operands 1) with
      | true => exact ⟨fun h => ⟨rfl, h⟩, fun h => h.2⟩
      | false =>
        exact iff_of_false (fun h => tableTarget_ne_panic _ _ _ _ h.symm) (fun h => nomatch h.1)

/-- **Where it fails**, the target of `next_pc` is the next instruction. -/
theorem nextPc_goesOn_iff {write : PcWrite} (hslot : InSlot decoder regs mem insn)
    (hwrites : Writes insn write) :
    nextPc decoder regs mem = .ok (fallthroughOf insn (insnAddr regs)) ↔
      GoesOn insn (fallthroughOf insn (insnAddr regs)) regs mem write := by
  have hnext : (fallthroughOf insn (insnAddr regs)).2 = true := hslot.set
  generalize hgoes : fallthroughOf insn (insnAddr regs) = next at hnext
  obtain ⟨address, thumb⟩ := next
  obtain rfl : thumb = true := hnext
  cases write with
  | no =>
    rw [GoesOn, ← hgoes]
    exact nextPc_no hslot hwrites
  | branch offset =>
    cases hwrites with
    | branch hop h0 =>
      rw [nextPc_branch hslot hop h0]
      simp [GoesOn]
  | exchange offset =>
    cases hwrites with
    | exchange hop h0 =>
      rw [nextPc_exchange hslot hop h0]
      simp [GoesOn]
  | register r =>
    cases hwrites with
    | register hop h0 =>
      rw [nextPc_register hslot hop h0, Outcome.ok.injEq]
      rfl
  | result =>
    cases hwrites with
    | result hpc hresult =>
      obtain ⟨value, hvalue⟩ := hresult regs
      rw [nextPc_result hslot hpc hvalue]
      cases htwo : twoOperands insn <;> simp [GoesOn, hvalue, htwo]
  | word =>
    cases hwrites with
    | word hop hpc haddr =>
      obtain ⟨loaded, hloaded⟩ := haddr regs
      rw [nextPc_word hslot hop hpc hloaded]
      cases hplain : isPlainAddress (insn.operands 1) <;> simp [GoesOn, hloaded, hplain]
  | list increment before base list =>
    cases hwrites with
    | list hloads hpc =>
      obtain ⟨loaded, hloaded, hanswer⟩ := nextPc_list hslot hloads hpc
      rw [hanswer]
      by_cases hsecond : insn.operands 1 = .regList list <;> simp [GoesOn, hloaded, hsecond]
  | entry base index =>
    cases hwrites with
    | entry hop hform =>
      rw [nextPc_entry hslot hop hform]
      cases hhandled : isTableForm (insn.operands 0) (insn.operands 1) <;> simp [GoesOn, hhandled]

/-- **`next_pc` in an IT slot** is right exactly where its target is the architecture's, if the
    condition of the slot holds, and the next instruction, if it fails. -/
theorem nextPc_itBlock_iff (origin : U32) (decoder : InstDecoder) (regs : RegContext)
    (mem : UserMem) (insn : Instruction) (write : PcWrite) (hslot : InSlot decoder regs mem insn)
    (hwrites : Writes insn write) :
    FollowsIt origin decoder insn regs mem write ↔
      if itPassed regs then TakenRight origin insn regs mem write
      else GoesOn insn (fallthroughOf insn (insnAddr regs)) regs mem write := by
  unfold FollowsIt itResult
  cases itPassed regs with
  | true => exact nextPc_archTarget_iff origin hslot hwrites
  | false => simpa using nextPc_goesOn_iff hslot hwrites

end

/-- `bx lr` in Thumb state. -/
def bxLr : Instruction :=
  ⟨.AL, .BX, fun i => if i = 0 then .reg 14 else .nothing, true, false⟩

/-- Thumb state in the last slot of an `IT EQ`, with the Z flag as given and lr 0x2001. -/
def itEqContext (z : Bool) : RegContext where
  r := fun _ => 0#32
  sp := 0#32
  lr := 0x2001#32
  pc := 0x1004#32
  cpsr := (1#32 <<< 5) ||| (1#32 <<< 11) ||| (if z then 1#32 <<< 30 else 0#32)

/-- The thread at `bx lr`, in that slot. -/
theorem bxLr_inSlot (z : Bool) :
    InSlot (knowing [0x70#8, 0x47#8] bxLr) (itEqContext z) (textAt 0x1000#32 [0x70#8, 0x47#8])
      bxLr where
  thumb := by cases z <;> decide
  fetched := ⟨[0x70#8, 0x47#8, 0#8, 0#8], by cases z <;> decide, by cases z <;> rfl⟩
  set := rfl
  always := rfl

theorem nextPc_itBlock_iff_bxLr :
    itActive (itEqContext true).cpsr = true ∧
      FollowsIt 4#32 (knowing [0x70#8, 0x47#8] bxLr) bxLr (itEqContext true)
        (textAt 0x1000#32 [0x70#8, 0x47#8]) (.register 14) :=
  ⟨by decide, (nextPc_itBlock_iff 4#32 (knowing [0x70#8, 0x47#8] bxLr) (itEqContext true)
    (textAt 0x1000#32 [0x70#8, 0x47#8]) bxLr (.register 14) (bxLr_inSlot true)
    (.register (.inl rfl) rfl)).mpr trivial⟩

/-- **A `bx lr` in a failing IT slot** is predicted as taken. -/
theorem nextPc_not_followsIt :
    ¬ ∀ (origin : U32) (decoder : InstDecoder) (regs : RegContext) (mem : UserMem)
      (insn : Instruction) (write : PcWrite), itActive regs.cpsr = true →
      InSlot decoder regs mem insn → Writes insn write →
      FollowsIt origin decoder insn regs mem write := by
  intro hclaim
  have hfollows := hclaim 4#32 (knowing [0x70#8, 0x47#8] bxLr) (itEqContext false)
    (textAt 0x1000#32 [0x70#8, 0x47#8]) bxLr (.register 14) (by decide) (bxLr_inSlot false)
    (.register (.inl rfl) rfl)
  have hnext := hfollows (.ok (0x1002#32, true)) (by decide)
  exact absurd hnext (by decide)

end VitaGdb.ArmNextPc
