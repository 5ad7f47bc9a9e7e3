/-
  Planted software breakpoints and the handler that has to recognise them.

  `setSwBreakpoint` chooses two or four bytes by the kind of the breakpoint; `handleBreak` reads
  four bytes at the faulting address and decides by an instruction-set bit which of the two traps
  to look for.  Nothing passes between the two but the text.

  `Recognised` is what a planted breakpoint is for: hitting it is handled and queues `SwBreak` for
  the thread.  It holds exactly when four bytes are readable there, CPACR's bit 5 (which `isThumb`
  takes for the instruction set) says what the kind says, and the ring has room
  (`handleBreak_recognised_iff`).  `HwOnlyRecorded` is the other half: `HwBreak` is queued for
  recorded hardware breakpoints only; the handler never looks at that table, so this holds exactly
  when the last branch is not reached or the address happens to be recorded
  (`handleBreak_hwOnlyRecorded_iff`).
-/
import VitaGdb.Gdb.Handlers

namespace VitaGdb

open GdbSessionInner

/-! ## The two byte patterns -/

/-- The low half of a little-endian word is its first two bytes. -/
theorem wordOf_low (b0 b1 b2 b3 : U8) :
    (wordOf [b0, b1, b2, b3]).setWidth 16 = (b1.setWidth 16 <<< 8) ||| b0.setWidth 16 := by
  ext i hi
  simp only [wordOf, List.foldr_cons, List.foldr_nil, BitVec.getElem_setWidth, BitVec.getLsbD_or,
    BitVec.getLsbD_shiftLeft, BitVec.getLsbD_setWidth, BitVec.getElem_or, BitVec.getElem_shiftLeft]
  have hi32 : i < 32 := by omega
  by_cases h : i < 8
  · simp [h, hi32]
  · have hlow : i - 8 < 8 := by omega
    have hlow32 : i - 8 < 32 := by omega
    simp [h, hi32, hlow, hlow32]

/-- The Thumb trap is no ARM `bkpt`, whatever follows it: bit 4 is clear. -/
theorem isBkpt_thumb_as_arm (b2 b3 : U8) : isBkpt [0x00#8, 0xbe#8, b2, b3] false = false := by
  have hbit : (wordOf [0x00#8, 0xbe#8, b2, b3]).getLsbD 4 = false := by
    have h := congrArg (fun w => w.getLsbD 4) (wordOf_low 0x00#8 0xbe#8 b2 b3)
    simpa [BitVec.getLsbD_setWidth] using h
  have hne : wordOf [0x00#8, 0xbe#8, b2, b3] &&& 0x0ff000f0#32 ≠ 0x01200070#32 := by
    intro heq
    have h : (wordOf [0x00#8, 0xbe#8, b2, b3] &&& 0x0ff000f0#32).getLsbD 4 =
        (0x01200070#32).getLsbD 4 := by rw [heq]
    rw [BitVec.getLsbD_and, hbit] at h
    exact absurd h (by decide)
  simp [isBkpt, hne]

/-- A trap read back with whatever follows it is recognised exactly in the instruction set its
    length was chosen for. -/
theorem isBkpt_planted (kind : ArmBreakpointKind) {insn : List U8} (thumb : Bool)
    (hfront : insn.take (patchLen kind) = patched kind) (hlen : insn.length = 4) :
    isBkpt insn thumb = true ↔ (thumb = true ↔ kind = .thumb16) := by
  match insn, hlen with
  | [b0, b1, b2, b3], _ =>
    cases kind with
    | thumb16 =>
      obtain ⟨rfl, rfl⟩ : b0 = 0x00#8 ∧ b1 = 0xbe#8 := by simpa [patchLen, patched] using hfront
      cases thumb with
      | true => simp [isBkpt, wordOf_low]
      | false => simp [isBkpt_thumb_as_arm]
    | thumb32 =>
      obtain ⟨rfl, rfl, rfl, rfl⟩ : b0 = 0x70#8 ∧ b1 = 0x00#8 ∧ b2 = 0x20#8 ∧ b3 = 0xE1#8 := by
        simpa [patchLen, patched] using hfront
      cases thumb <;> decide
    | arm32 =>
      obtain ⟨rfl, rfl, rfl, rfl⟩ : b0 = 0x70#8 ∧ b1 = 0x00#8 ∧ b2 = 0x20#8 ∧ b3 = 0xE1#8 := by
        simpa [patchLen, patched] using hfront
      cases thumb <;> decide

/-- The two bytes or four that were planted are the front of the four that are read. -/
theorem read_take_of_write {m : UserMem} {addr : U32} {bytes insn : List U8}
    (hle : bytes.length ≤ 4)
    (hread : ByteMem.read (ByteMem.write m addr bytes) addr 4 = some insn) :
    insn.take bytes.length = bytes := by
  obtain ⟨hlen, hcells⟩ := ByteMem.read_eq_some_iff.mp hread
  refine List.ext_getElem? fun i => ?_
  rw [List.getElem?_take]
  split
  · next hi =>
    have hoff := ByteMem.toNat_add_ofNat_sub addr (show i < 2 ^ 32 by omega)
    have hin := ByteMem.inRange_add_ofNat addr hi (by omega)
    rw [← hcells i (by omega), ByteMem.write_of_inRange m hin, hoff]
  · next hi => rw [List.getElem?_eq_none (by omega)]

/-! ## What a break queues -/

variable {w : World} {pid tid : SceUID} {i : Fin 4} {context : SceExcpmgrExceptionContext}

/-- A break on a range that is not readable is not handled. -/
theorem handleBreak_unreadable (hfind : findSessionForPid w.pool pid = some i)
    (hread : ByteMem.read (w.kernel.mem pid) context.addressOfFaultingInstruction 4 = none) :
    handleBreak w pid tid context = (.ok .notHandled, w) := by
  simp only [handleBreak, hfind, breakHalts, Kernel.ksceKernelCopyFromUserProc, hread, runHandler]

/-- A break that completes no step is handled, and queues by what the four bytes look like in the
    instruction set CPACR names. -/
theorem handleBreak_queues (tid : SceUID) {insn : List U8}
    (hfind : findSessionForPid w.pool pid = some i)
    (hread : ByteMem.read (w.kernel.mem pid) context.addressOfFaultingInstruction 4 = some insn)
    (hstep : (w.pool i).isStep context.addressOfFaultingInstruction = false) :
    (handleBreak w pid tid context).1 = .ok .handlingCode2 ∧
      ((handleBreak w pid tid context).2.pool i).exceptions =
        ((w.pool i).pushExcp (w.kernel.haltForDebug pid tid)
          (if isBkpt insn (isThumb context) then .swBreak tid else .hwBreak tid)).1.exceptions := by
  simp only [handleBreak, hfind, breakHalts, Kernel.ksceKernelCopyFromUserProc, hread, runHandler,
    queue, hstep, Bool.false_eq_true, if_false]
  split
  · exact ⟨rfl, congrArg (·.exceptions) (World.put_pool_self ..)⟩
  · exact ⟨rfl, congrArg (·.exceptions) (World.put_pool_self ..)⟩

/-- A break that completes a step leaves the ring as it is. -/
theorem handleBreak_completes {insn : List U8} (hfind : findSessionForPid w.pool pid = some i)
    (hread : ByteMem.read (w.kernel.mem pid) context.addressOfFaultingInstruction 4 = some insn)
    (hstep : (w.pool i).isStep context.addressOfFaultingInstruction = true) :
    ((handleBreak w pid tid context).2.pool i).exceptions = (w.pool i).exceptions := by
  simp only [handleBreak, hfind, breakHalts, Kernel.ksceKernelCopyFromUserProc, hread, runHandler,
    queue, hstep, if_true, World.put_pool_self]
  exact stepFinished_exceptions _ _

/-! ## Planted breakpoints -/

/-- `w` is the world after `set_sw_breakpoint` answered true on a fresh slot. -/
structure Planted (w₀ : World) (pid : SceUID) (i : Fin 4) (addr : U32) (kind : ArmBreakpointKind)
    (w : World) : Prop where
  found : findSessionForPid w₀.pool pid = some i
  fresh : ¬ (w₀.pool i).HasSlot addr
  answer : ((w₀.pool i).setSwBreakpoint w₀.kernel addr kind).1 = true
  after : w = w₀.put i ((w₀.pool i).setSwBreakpoint w₀.kernel addr kind).2.1
    ((w₀.pool i).setSwBreakpoint w₀.kernel addr kind).2.2

/-- The text has the trap, and the session is the same but for its slot. -/
theorem Planted.spec {w₀ : World} {addr : U32} {kind : ArmBreakpointKind}
    (h : Planted w₀ pid i addr kind w) :
    findSessionForPid w.pool pid = some i ∧
      w.kernel.mem pid = ByteMem.write (w₀.kernel.mem pid) addr (patched kind) ∧
      ∃ j b, w.pool i = (w₀.pool i).withSlot j (some b) := by
  obtain ⟨hfound, hfresh, hanswer, rfl⟩ := h
  have hpid : (w₀.pool i).pid = pid := SessionPool.slotOf_some hfound
  rcases setSwBreakpoint_cases (w₀.pool i) w₀.kernel addr kind with
    ⟨r, heq, hslot⟩ | ⟨p, j, orig, hc⟩
  · rw [heq] at hanswer
    exact absurd (hslot hanswer) hfresh
  · obtain ⟨-, rfl⟩ := getPid_eq_some.mp hc.owned
    rw [hc.setSwBreakpoint_eq] at hanswer ⊢
    rcases hw : w₀.kernel.writeUserText (w₀.pool i).pid addr (patched kind) with ⟨res, k'⟩
    rw [hw] at hanswer
    cases res with
    | error e => exact absurd hanswer (by simp)
    | ok _ =>
      refine ⟨?_, ?_, j, _, World.put_pool_self ..⟩
      · exact Eq.trans (World.findSessionForPid_put (by rfl) pid) hfound
      · show k'.mem pid = _
        rw [Kernel.writeUserText_mem hw, ← hpid, Function.update_self]

/-- Hitting the breakpoint is handled and queues `SwBreak` for the thread. -/
def Recognised (w : World) (i : Fin 4) (pid tid : SceUID) (context : SceExcpmgrExceptionContext) :
    Prop :=
  (handleBreak w pid tid context).1 = .ok .handlingCode2 ∧
    ((handleBreak w pid tid context).2.pool i).exceptions.pending =
      (w.pool i).exceptions.pending ++ [.swBreak tid]

/-- `HwBreak` is queued only for a recorded hardware breakpoint. -/
def HwOnlyRecorded (w : World) (i : Fin 4) (pid tid : SceUID)
    (context : SceExcpmgrExceptionContext) : Prop :=
  ((handleBreak w pid tid context).2.pool i).exceptions.pending =
      (w.pool i).exceptions.pending ++ [.hwBreak tid] →
    ∃ j b, (w.pool i).hwBreakpoints j = some b ∧ b.addr = context.addressOfFaultingInstruction

/-- The handler gets to its last branch, with room in the ring. -/
def ReachesHwBreak (w : World) (i : Fin 4) (pid : SceUID) (context : SceExcpmgrExceptionContext) :
    Prop :=
  ∃ insn, ByteMem.read (w.kernel.mem pid) context.addressOfFaultingInstruction 4 = some insn ∧
    (w.pool i).isStep context.addressOfFaultingInstruction = false ∧
    isBkpt insn (isThumb context) = false ∧ (w.pool i).exceptions.pending.length + 1 < 8

/-- **A planted breakpoint is recognised** exactly when four bytes are readable at it, CPACR's bit 5
    agrees with its kind, and the ring has room. -/
theorem handleBreak_recognised_iff {w₀ : World} {addr : U32} {kind : ArmBreakpointKind}
    (hplant : Planted w₀ pid i addr kind w) {evflag : EventFlagRef}
    (hflag : (w₀.pool i).evflag = some evflag)
    (haddr : context.addressOfFaultingInstruction = addr)
    (hstep : (w.pool i).isStep addr = false) :
    Recognised w i pid tid context ↔
      (ByteMem.read (w.kernel.mem pid) addr 4).isSome ∧
        (isThumb context = true ↔ kind = .thumb16) ∧
        (w.pool i).exceptions.pending.length + 1 < 8 := by
  obtain ⟨hfind, hmem, j, b, hpool⟩ := hplant.spec
  have hflag' : (w.pool i).evflag = some evflag := by rw [hpool]; exact hflag
  subst haddr
  cases hread : ByteMem.read (w.kernel.mem pid) context.addressOfFaultingInstruction 4 with
  | none =>
    rw [Recognised, handleBreak_unreadable hfind hread]
    simp
  | some insn =>
    obtain ⟨hcode, hring⟩ := handleBreak_queues tid hfind hread hstep
    have hbkpt : isBkpt insn (isThumb context) = true ↔
        (isThumb context = true ↔ kind = .thumb16) := by
      refine isBkpt_planted kind _ ?_ (ByteMem.read_length hread)
      rw [← patched_length]
      rw [hmem] at hread
      exact read_take_of_write (by rw [patched_length]; cases kind <;> decide) hread
    rw [Recognised, hcode, hring, pushExcp_pending hflag', ← hbkpt]
    by_cases hroom : (w.pool i).exceptions.pending.length + 1 < 8 <;>
      cases isBkpt insn (isThumb context) <;> simp [hroom]

/-- **`HwBreak` means a recorded breakpoint** exactly when the last branch is not reached or the
    address is recorded. -/
theorem handleBreak_hwOnlyRecorded_iff (hfind : findSessionForPid w.pool pid = some i)
    {evflag : EventFlagRef} (hflag : (w.pool i).evflag = some evflag) :
    HwOnlyRecorded w i pid tid context ↔
      (ReachesHwBreak w i pid context →
        ∃ j b, (w.pool i).hwBreakpoints j = some b ∧
          b.addr = context.addressOfFaultingInstruction) := by
  refine imp_congr_left ?_
  cases hread : ByteMem.read (w.kernel.mem pid) context.addressOfFaultingInstruction 4 with
  | none =>
    rw [handleBreak_unreadable hfind hread]
    simp [ReachesHwBreak, hread]
  | some insn =>
    cases hstep : (w.pool i).isStep context.addressOfFaultingInstruction with
    | true =>
      rw [handleBreak_completes hfind hread hstep]
      simp [ReachesHwBreak, hstep]
    | false =>
      rw [(handleBreak_queues tid hfind hread hstep).2, pushExcp_pending hflag]
      cases hb : isBkpt insn (isThumb context) <;>
        by_cases hroom : (w.pool i).exceptions.pending.length + 1 < 8 <;>
        simp [ReachesHwBreak, hread, hstep, hb, hroom]

/-- Both halves, for every session and context. -/
theorem handleBreak_recognises (w : World) (pid tid : SceUID) (i : Fin 4)
    (context : SceExcpmgrExceptionContext) :
    (∀ (w₀ : World) (kind : ArmBreakpointKind) (evflag : EventFlagRef),
      Planted w₀ pid i context.addressOfFaultingInstruction kind w →
      (w₀.pool i).evflag = some evflag →
      (w.pool i).isStep context.addressOfFaultingInstruction = false →
      (Recognised w i pid tid context ↔
        (ByteMem.read (w.kernel.mem pid) context.addressOfFaultingInstruction 4).isSome ∧
          (isThumb context = true ↔ kind = .thumb16) ∧
          (w.pool i).exceptions.pending.length + 1 < 8)) ∧
    ∀ evflag : EventFlagRef, findSessionForPid w.pool pid = some i →
      (w.pool i).evflag = some evflag →
      (HwOnlyRecorded w i pid tid context ↔
        (ReachesHwBreak w i pid context →
          ∃ j b, (w.pool i).hwBreakpoints j = some b ∧
            b.addr = context.addressOfFaultingInstruction)) :=
  ⟨fun _ _ _ hplant hflag hstep => handleBreak_recognised_iff hplant hflag rfl hstep,
    fun _ hfind hflag => handleBreak_hwOnlyRecorded_iff hfind hflag⟩

/-- Process 7 in slot 0, with a hardware breakpoint at 0x2000 and a text that is mapped throughout;
    then with a Thumb breakpoint at 0x1000. -/
def attachedWorld : World where
  pool := Function.update SessionPool.uninit 0
    { GdbSessionInner.uninit with
      pid := 7#32
      evflag := some ⟨3#32⟩
      hwBreakpoints := Function.update SlotTable.empty 0 (some ⟨0x2000#32⟩) }
  kernel := Kernel.quiet fun _ a => some (a.setWidth 8)
def plantedWorld : World :=
  attachedWorld.put 0
    ((attachedWorld.pool 0).setSwBreakpoint attachedWorld.kernel 0x1000#32 .thumb16).2.1
    ((attachedWorld.pool 0).setSwBreakpoint attachedWorld.kernel 0x1000#32 .thumb16).2.2

/-- A debug prefetch abort at an address, in Thumb state, with the given CPACR. -/
def thumbAbort (addr CPACR : U32) : SceExcpmgrExceptionContext where
  addressOfFaultingInstruction := addr
  SPSR := 1#32 <<< 5
  CPACR := CPACR
  IFSR := 0x2#32
  IFAR := addr
  DFSR := 0#32
  DFAR := 0#32

theorem plantedWorld_planted : Planted attachedWorld 7#32 0 0x1000#32 .thumb16 plantedWorld where
  found := by decide
  fresh := by
    rintro ⟨i, b, hb, -⟩
    have hnone : ∀ i, (attachedWorld.pool 0).swBreakpoints i = none := by decide
    rw [hnone] at hb
    exact absurd hb (by simp)
  answer := by decide
  after := rfl

/-- With CPACR bit 5 set the breakpoint is recognised; the hardware breakpoint is a recorded one. -/
theorem handleBreak_recognises_planted :
    Recognised plantedWorld 0 7#32 9#32 (thumbAbort 0x1000#32 0x20#32) ∧
      HwOnlyRecorded plantedWorld 0 7#32 9#32 (thumbAbort 0x2000#32 0#32) :=
  ⟨((handleBreak_recognises plantedWorld 7#32 9#32 0 (thumbAbort 0x1000#32 0x20#32)).1
      attachedWorld .thumb16 ⟨3#32⟩ plantedWorld_planted rfl (by decide)).mpr
      ⟨by decide, by decide, by decide⟩,
    ((handleBreak_recognises plantedWorld 7#32 9#32 0 (thumbAbort 0x2000#32 0#32)).2 ⟨3#32⟩
      (by decide) rfl).mpr fun _ => ⟨0, ⟨0x2000#32⟩, by decide, rfl⟩⟩

/-- **A Thumb breakpoint hit with CPACR bit 5 clear** is reported as a hardware breakpoint. -/
theorem handleBreak_not_recognised :
    ¬ ∀ (w₀ w : World) (pid tid : SceUID) (i : Fin 4) (context : SceExcpmgrExceptionContext)
      (kind : ArmBreakpointKind) (evflag : EventFlagRef),
      Planted w₀ pid i context.addressOfFaultingInstruction kind w →
      (w₀.pool i).evflag = some evflag → fsrIsDebug context.IFSR = true →
      ((context.SPSR >>> 5) &&& 1#32 ≠ 0#32 ↔ kind ≠ .arm32) →
      (w.pool i).isStep context.addressOfFaultingInstruction = false →
      Recognised w i pid tid context ∧ HwOnlyRecorded w i pid tid context := by
  intro hclaim
  have hrec := hclaim attachedWorld plantedWorld 7#32 9#32 0 (thumbAbort 0x1000#32 0#32) .thumb16
    ⟨3#32⟩ plantedWorld_planted rfl (by decide) (by decide) (by decide)
  exact absurd hrec.1.2 (by decide)

end VitaGdb
