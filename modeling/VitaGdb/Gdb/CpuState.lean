/-
  The interrupt mask and the process context, across every write of program text.

  `write_user_text` suspends interrupts and switches the process context between its copy and its
  end, and returns early from three places in between.  What is asked is that a call leaves the
  mask as deep as it was, and the context in force that was in force, unless the kernel refuses the
  switch back.

  The context is always given back.  The mask is not: it stays one deeper exactly where the copy
  was made and one of the three calls behind it fails (`TextWrite.Balances`).

  A caller's writes are a list (`textWrites`), of one write for a breakpoint and a memory write, of
  one for each planted breakpoint at the end of a session.  `writeAll_intr_eq_iff` says that no
  later write makes up for an unbalanced one, which gives the condition for lists, for the calls
  that make them, and for runs of such calls (`textCalls_restore_iff`).
-/
import VitaGdb.Lib.Runs
import VitaGdb.Kernel.UserText
import VitaGdb.Gdb.MemoryWrites
import VitaGdb.Gdb.Target

namespace VitaGdb

/-! ## One write -/

/-- One `write_user_text`: the process, the address and the bytes. -/
structure TextWrite where
  pid : SceUID
  dst : U32
  buf : List U8

namespace TextWrite

/-- The kernel after the write. -/
def run (k : Kernel) (x : TextWrite) : Kernel := (k.writeUserText x.pid x.dst x.buf).2

/-- The copy is not made, or none of the three calls behind it fails. -/
def Balances (k : Kernel) (x : TextWrite) : Prop :=
  (ByteMem.read (k.mem x.pid) x.dst x.buf.length).isSome → k.stopsBehindCopy = false

instance (k : Kernel) (x : TextWrite) : Decidable (Balances k x) :=
  inferInstanceAs (Decidable (_ → _))

/-- The kernel does not refuse the switch back to the context in force. -/
def SwitchesBack (k : Kernel) (x : TextWrite) : Prop :=
  k.writeExit x.pid x.dst x.buf.length ≠ .notSwitchedBack

/-- The mask is as deep as before, and the context is given back where the kernel lets it. -/
structure Restores (k : Kernel) (x : TextWrite) : Prop where
  intr : (x.run k).intr = k.intr
  context : x.SwitchesBack k → (x.run k).context = k.context

variable {k : Kernel} {x : TextWrite}

theorem run_intr (k : Kernel) (x : TextWrite) :
    (x.run k).intr = k.intr + (k.writeExit x.pid x.dst x.buf.length).leaked := by
  rw [run, Kernel.writeUserText_eq]
  exact Kernel.afterWrite_intr _

theorem run_context (h : x.SwitchesBack k) : (x.run k).context = k.context := by
  rw [run, Kernel.writeUserText_eq]
  exact (Kernel.afterWrite_context _).trans (if_neg h)

theorem run_intr_eq_iff : (x.run k).intr = k.intr ↔ x.Balances k := by
  rw [run_intr, Nat.add_eq_left, Kernel.writeExit_leaked_iff, Balances]

theorem restores_iff : x.Restores k ↔ x.Balances k :=
  ⟨fun h => run_intr_eq_iff.mp h.intr, fun h => ⟨run_intr_eq_iff.mpr h, run_context⟩⟩

end TextWrite

/-! ## A list of writes -/

/-- The writes one after the other. -/
def writeAll (k : Kernel) (xs : List TextWrite) : Kernel := xs.foldl (fun k x => x.run k) k

/-- A condition on the writes of a list, each in the kernel it is made in. -/
def AllWrites (cond : Kernel → TextWrite → Prop) (k : Kernel) (xs : List TextWrite) : Prop :=
  LTS.Along (fun k x => some (TextWrite.run k x)) cond k xs

instance (k : Kernel) (xs : List TextWrite) : Decidable (AllWrites TextWrite.Balances k xs) :=
  inferInstanceAs (Decidable (LTS.Along _ _ _ _))

theorem allWrites_cons {cond : Kernel → TextWrite → Prop} {k : Kernel} {x : TextWrite}
    {xs : List TextWrite} :
    AllWrites cond k (x :: xs) ↔ cond k x ∧ AllWrites cond (x.run k) xs :=
  ⟨fun h => ⟨h.1, h.2 _ rfl⟩, fun h => LTS.Along.cons rfl h.1 h.2⟩

/-- The mask only gets deeper. -/
theorem le_writeAll_intr (xs : List TextWrite) : ∀ k : Kernel, k.intr ≤ (writeAll k xs).intr := by
  induction xs with
  | nil => exact fun k => Nat.le_refl k.intr
  | cons x xs ih =>
    intro k
    have hfirst : k.intr ≤ (x.run k).intr := by
      rw [TextWrite.run_intr]
      exact Nat.le_add_right _ _
    exact hfirst.trans (ih (x.run k))

/-- **No later write makes up for an unbalanced one.** -/
theorem writeAll_intr_eq_iff (xs : List TextWrite) :
    ∀ k : Kernel, (writeAll k xs).intr = k.intr ↔ AllWrites TextWrite.Balances k xs := by
  induction xs with
  | nil => exact fun _ => ⟨fun _ => trivial, fun _ => rfl⟩
  | cons x xs ih =>
    intro k
    have hfirst := le_writeAll_intr [x] k
    have hrest := le_writeAll_intr xs (x.run k)
    rw [allWrites_cons, ← TextWrite.run_intr_eq_iff, ← ih]
    show (writeAll (x.run k) xs).intr = k.intr ↔ _
    have hone : (writeAll k [x]).intr = (x.run k).intr := rfl
    constructor
    · intro h
      constructor <;> omega
    · rintro ⟨h, h'⟩
      omega

theorem writeAll_context (xs : List TextWrite) :
    ∀ k : Kernel, AllWrites TextWrite.SwitchesBack k xs → (writeAll k xs).context = k.context := by
  induction xs with
  | nil => exact fun _ _ => rfl
  | cons x xs ih =>
    intro k h
    rw [allWrites_cons] at h
    exact (ih (x.run k) h.2).trans (TextWrite.run_context h.1)

/-! ## The writes of each operation -/

/-- The part of the kernel the writes have to give back. -/
def Kernel.cpu (k : Kernel) : Nat × SceUID := (k.intr, k.context)

namespace GdbSessionInner

/-- The write of `set_sw_breakpoint`, where it gets that far. -/
def plantingWrite (s : GdbSessionInner) (k : Kernel) (addr : U32) (kind : ArmBreakpointKind) :
    List TextWrite :=
  match s.getPid with
  | none => []
  | some pid =>
    if isSharedAddress addr = false ∧ (ByteMem.read (k.mem pid) addr (patchLen kind)).isSome ∧
      ¬ s.HasSlot addr ∧ (SlotTable.freeSlot s.swBreakpoints).isSome
    then [⟨pid, addr, patched kind⟩] else []

/-- The write of `clear_sw_breakpoint`, where the address has a slot. -/
def removingWrite (s : GdbSessionInner) (addr : U32) : List TextWrite :=
  match s.getPid, SlotTable.findSlot (fun b => b.addr = addr) s.swBreakpoints with
  | some pid, some (_, b) => [⟨pid, b.addr, b.saved⟩]
  | _, _ => []

/-- The writes of `clear_all`, in slot order. -/
def endingWrites (s : GdbSessionInner) : List TextWrite :=
  (SlotTable.entries s.swBreakpoints).map fun e => ⟨s.pid, e.2.addr, e.2.saved⟩

/-- The kernel when `clear_all` comes to the software breakpoints. -/
def registersReleased (s : GdbSessionInner) (k : Kernel) : Kernel :=
  let k := (SlotTable.drain (fun k idx _ => (k.sceKernelSetPHBP s.pid idx 0#32 0#32).2)
    s.hwBreakpoints k).2
  (SlotTable.drain (fun k idx _ => (k.sceKernelSetPHWP s.pid idx 0#32 0#32).2)
    s.hwWatchpoints k).2

variable {s : GdbSessionInner} {k : Kernel} {addr : U32} {kind : ArmBreakpointKind}

theorem Claims.plantingWrite_eq {pid : SceUID} {i : Fin 16} {orig : List U8}
    (h : s.Claims k addr kind pid i orig) :
    s.plantingWrite k addr kind = [⟨pid, addr, patched kind⟩] := by
  rw [plantingWrite, h.owned]
  exact if_pos ⟨h.notShared, by rw [h.read]; rfl, h.fresh, by rw [h.free]; rfl⟩

theorem plantingWrite_eq_nil (h : ¬ ∃ pid i orig, s.Claims k addr kind pid i orig) :
    s.plantingWrite k addr kind = [] := by
  rw [plantingWrite]
  cases hpid : s.getPid with
  | none => rfl
  | some pid =>
    refine if_neg ?_
    rintro ⟨hshared, hread, hfresh, hfree⟩
    obtain ⟨orig, horig⟩ := Option.isSome_iff_exists.mp hread
    obtain ⟨i, hi⟩ := Option.isSome_iff_exists.mp hfree
    exact h ⟨pid, i, orig, hpid, hshared, horig, hfresh, hi⟩

theorem setSwBreakpoint_kernel (s : GdbSessionInner) (k : Kernel) (addr : U32)
    (kind : ArmBreakpointKind) :
    (s.setSwBreakpoint k addr kind).2.2 = writeAll k (s.plantingWrite k addr kind) := by
  by_cases hc : ∃ pid i orig, s.Claims k addr kind pid i orig
  · obtain ⟨pid, i, orig, hc⟩ := hc
    rw [hc.plantingWrite_eq, hc.setSwBreakpoint_eq]
    show _ = (k.writeUserText pid addr (patched kind)).2
    rcases k.writeUserText pid addr (patched kind) with ⟨res, k'⟩
    cases res <;> rfl
  · rw [plantingWrite_eq_nil hc]
    rcases setSwBreakpoint_cases s k addr kind with ⟨r, heq, -⟩ | hc'
    · rw [heq]
      rfl
    · exact absurd hc' hc

theorem clearSwBreakpoint_kernel (s : GdbSessionInner) (k : Kernel) (addr : U32) :
    (s.clearSwBreakpoint k addr).2.2 = writeAll k (s.removingWrite addr) := by
  rw [clearSwBreakpoint, removingWrite]
  cases s.getPid with
  | none => rfl
  | some pid =>
    cases SlotTable.findSlot (fun b => b.addr = addr) s.swBreakpoints with
    | none => rfl
    | some ib =>
      show _ = (k.writeUserText pid ib.2.addr ib.2.saved).2
      simp only [restoreSwSlot]
      rcases k.writeUserText pid ib.2.addr ib.2.saved with ⟨res, k'⟩
      cases res <;> rfl

theorem writeAddrs_kernel (s : GdbSessionInner) (k : Kernel) (startAddr : U32) (data : List U8) :
    (s.writeAddrs k startAddr data).2 =
      writeAll k (s.getPid.toList.map fun pid => ⟨pid, startAddr, data⟩) := by
  rw [writeAddrs]
  cases s.getPid with
  | none => rfl
  | some pid =>
    show _ = (k.writeUserText pid startAddr data).2
    dsimp only
    rcases k.writeUserText pid startAddr data with ⟨res, k'⟩
    cases res <;> rfl

theorem clearAll_kernel (s : GdbSessionInner) (k : Kernel) :
    (s.clearAll k).2 = writeAll (s.registersReleased k) s.endingWrites := by
  show (SlotTable.drain (fun k _ b => (restoreSwSlot k s.pid (some b)).2.2) s.swBreakpoints
    (s.registersReleased k)).2 = _
  rw [SlotTable.drain_eq_foldl, endingWrites, writeAll, List.foldl_map]
  rfl

theorem registersReleased_cpu (s : GdbSessionInner) (k : Kernel) :
    (s.registersReleased k).cpu = k.cpu := by
  have hbp : ∀ (k : Kernel) idx (_ : HwBreakpoint),
      (k.sceKernelSetPHBP s.pid idx 0#32 0#32).2.cpu = k.cpu := fun k _ _ =>
    Kernel.sceCall_proj Kernel.cpu (fun _ _ => rfl) fun _ => rfl
  have hwp : ∀ (k : Kernel) idx (_ : HwWatchpoint),
      (k.sceKernelSetPHWP s.pid idx 0#32 0#32).2.cpu = k.cpu := fun k _ _ =>
    Kernel.sceCall_proj Kernel.cpu (fun _ _ => rfl) fun _ => rfl
  rw [registersReleased, SlotTable.drain_proj Kernel.cpu hwp, SlotTable.drain_proj Kernel.cpu hbp]

/-- Dropping a session whose breakpoints are cleared writes nothing. -/
theorem drop_cpu (h : s.swBreakpoints = SlotTable.empty) (k : Kernel) :
    (s.drop k).2.cpu = k.cpu := by
  have hnone : s.endingWrites = [] := by
    rw [endingWrites, h]
    rfl
  have hreset : ∀ (s : GdbSessionInner) (k : Kernel), (s.reset k).2.cpu = k.cpu := by
    intro s k
    rw [reset]
    cases s.evflag with
    | none => rfl
    | some evflag => exact Kernel.sceCall_proj Kernel.cpu (fun _ _ => rfl) fun _ => rfl
  calc (s.drop k).2.cpu = (s.clearAll k).2.cpu := hreset _ _
    _ = (s.registersReleased k).cpu := by rw [clearAll_kernel, hnone]; rfl
    _ = k.cpu := registersReleased_cpu s k

/-- Completing a step writes what removing its breakpoint writes. -/
theorem stepFinished_cpu (s : GdbSessionInner) (k : Kernel) :
    (s.stepFinished k).2.2.cpu =
      (writeAll k (s.step.toList.flatMap fun step => s.removingWrite step.2)).cpu := by
  cases hstep : s.step with
  | none =>
    rw [stepFinished_none hstep]
    rfl
  | some step =>
    obtain ⟨tid, addr⟩ := step
    have hclear := clearSwBreakpoint_kernel { s with step := none } k addr
    have hsame : ({ s with step := none } : GdbSessionInner).removingWrite addr =
        s.removingWrite addr := rfl
    rw [hsame] at hclear
    rw [stepFinished, hstep]
    simp only [Option.toList_some, List.flatMap_cons, List.flatMap_nil, List.append_nil]
    rw [← hclear]
    split
    · rfl
    · exact Kernel.sceCall_proj Kernel.cpu (fun _ _ => rfl) fun _ => rfl

end GdbSessionInner

theorem Kernel.resumeProcess_cpu (k : Kernel) (pid : SceUID) :
    (k.resumeProcess pid).2.cpu = k.cpu := by
  have hstatus : ∀ k : Kernel, (k.getProcessStatus pid).2.cpu = k.cpu := by
    intro k
    have hcall : (k.sceCall "ksceKernelGetProcessStatus" id).2.cpu = k.cpu :=
      sceCall_proj Kernel.cpu (fun _ _ => rfl) fun _ => rfl
    rw [getProcessStatus]
    split <;> next h => rwa [h] at hcall
  have hids : ∀ k : Kernel, (k.getThreadIds pid).2.cpu = k.cpu := by
    intro k
    have hcall : (k.sceCall "ksceKernelGetThreadIdList" id).2.cpu = k.cpu :=
      sceCall_proj Kernel.cpu (fun _ _ => rfl) fun _ => rfl
    rw [getThreadIds]
    split
    · next h => rwa [h] at hcall
    · next h =>
      rw [h] at hcall
      dsimp only
      split <;> exact hcall
  have hrun : ∀ (tids : List SceUID) (k : Kernel), (runThreads tids k).cpu = k.cpu := by
    intro tids
    induction tids with
    | nil => exact fun _ => rfl
    | cons tid tids ih =>
      intro k
      exact (ih _).trans (sceCall_proj Kernel.cpu (fun _ _ => rfl) fun _ => rfl)
  have hget := hstatus k
  rw [resumeProcess]
  split
  · next h => rwa [h] at hget
  · next k₁ h =>
    rw [h] at hget
    split
    · exact hget
    · have hlist := hids k₁
      split
      · next h₂ =>
        rw [h₂] at hlist
        exact hlist.trans hget
      · next h₂ =>
        rw [h₂] at hlist
        exact hlist.trans hget
      · next tids k₂ h₂ =>
        rw [h₂] at hlist
        have hresume : ((runThreads tids k₂).ksceKernelResumeProcess pid).2.cpu =
            (runThreads tids k₂).cpu := sceCall_proj Kernel.cpu (fun _ _ => rfl) fun _ => rfl
        have hall := hresume.trans ((hrun tids k₂).trans (hlist.trans hget))
        split <;> next h₃ => rwa [h₃] at hall

/-! ## Runs of calls of the target -/

/-- `write_addrs`. -/
def VitaTarget.writeAddrs (t : VitaTarget) (w : World) (startAddr : U32) (data : List U8) :
    Bool × World :=
  match t.session with
  | none => (true, w)
  | some i =>
    let (res, k) := (w.pool i).writeAddrs w.kernel startAddr data
    (res, w.put i (w.pool i) k)

/-- What may happen to a target that writes program text; `stepFinished` is the handler's call on
    the session of the target. -/
inductive TextCall where
  | addSwBreakpoint (addr : U32) (kind : ArmBreakpointKind)
  | removeSwBreakpoint (addr : U32)
  | writeAddrs (startAddr : U32) (data : List U8)
  | stepFinished
  | attach (pid : SceUID) (kind : AttachKind)
  | detach

/-- One call. -/
def textCall (x : VitaTarget × World) : TextCall → VitaTarget × World
  | .addSwBreakpoint addr kind => (x.1, (x.1.addSwBreakpoint x.2 addr kind).2)
  | .removeSwBreakpoint addr => (x.1, (x.1.removeSwBreakpoint x.2 addr).2)
  | .writeAddrs startAddr data => (x.1, (x.1.writeAddrs x.2 startAddr data).2)
  | .stepFinished =>
    match x.1.session with
    | none => x
    | some i =>
      let (_, s, k) := (x.2.pool i).stepFinished x.2.kernel
      (x.1, x.2.put i s k)
  | .attach pid kind => (x.1.attach x.2 pid kind).2
  | .detach => x.1.detach x.2

/-- The writes of a call on a session, and the kernel in which it makes the first. -/
def sessionWrites (s : GdbSessionInner) (k : Kernel) : TextCall → Kernel × List TextWrite
  | .addSwBreakpoint addr kind => (k, s.plantingWrite k addr kind)
  | .removeSwBreakpoint addr => (k, s.removingWrite addr)
  | .writeAddrs startAddr data => (k, s.getPid.toList.map fun pid => ⟨pid, startAddr, data⟩)
  | .stepFinished => (k, s.step.toList.flatMap fun step => s.removingWrite step.2)
  | .attach .. => (k, [])
  | .detach => (s.registersReleased k, s.endingWrites)

/-- The writes of a call. -/
def textWrites (x : VitaTarget × World) (call : TextCall) : Kernel × List TextWrite :=
  match x.1.session with
  | none => (x.2.kernel, [])
  | some i => sessionWrites (x.2.pool i) x.2.kernel call

/-- None of the writes of a call stops behind its copy. -/
def WritesBalance (x : VitaTarget × World) (call : TextCall) : Prop :=
  AllWrites TextWrite.Balances (textWrites x call).1 (textWrites x call).2

instance (x : VitaTarget × World) (call : TextCall) : Decidable (WritesBalance x call) :=
  inferInstanceAs (Decidable (AllWrites _ _ _))

/-- After the call the mask is as deep as before, and the context that was in force is, where the
    kernel refuses no switch back to it. -/
structure RestoresCpu (x : VitaTarget × World) (call : TextCall) : Prop where
  intr : (textCall x call).2.kernel.intr = x.2.kernel.intr
  context : AllWrites TextWrite.SwitchesBack (textWrites x call).1 (textWrites x call).2 →
    (textCall x call).2.kernel.context = x.2.kernel.context

theorem attach_kernel (t : VitaTarget) (w : World) (pid : SceUID) (kind : AttachKind) :
    (t.attach w pid kind).2.2.kernel = w.kernel := by
  rw [VitaTarget.attach]
  split
  · rfl
  · split <;> rfl

theorem detach_cpu {t : VitaTarget} {i : Fin 4} (h : t.session = some i) (w : World) :
    (t.detach w).2.kernel.cpu = ((w.pool i).clearAll w.kernel).2.cpu := by
  have hempty := GdbSessionInner.clearAll_swBreakpoints (w.pool i) w.kernel
  rw [VitaTarget.detach, h]
  dsimp only [World.put_kernel]
  rw [GdbSessionInner.drop_cpu hempty]
  split
  · exact Kernel.resumeProcess_cpu _ _
  · rfl

/-- The writes of a call are all it does to the state of the CPU. -/
theorem textCall_cpu (x : VitaTarget × World) (call : TextCall) :
    (textWrites x call).1.cpu = x.2.kernel.cpu ∧
      (textCall x call).2.kernel.cpu =
        (writeAll (textWrites x call).1 (textWrites x call).2).cpu := by
  obtain ⟨t, w⟩ := x
  rw [textWrites]
  cases hsession : t.session with
  | none =>
    -- without a session no call writes text
    refine ⟨rfl, ?_⟩
    cases call with
    | addSwBreakpoint addr kind => simp [textCall, VitaTarget.addSwBreakpoint, hsession, writeAll]
    | removeSwBreakpoint addr => simp [textCall, VitaTarget.removeSwBreakpoint, hsession, writeAll]
    | writeAddrs startAddr data => simp [textCall, VitaTarget.writeAddrs, hsession, writeAll]
    | stepFinished => simp [textCall, hsession, writeAll]
    | attach pid kind => exact congrArg Kernel.cpu (attach_kernel t w pid kind)
    | detach => simp [textCall, VitaTarget.detach, hsession, writeAll]
  | some i =>
    cases call with
    | addSwBreakpoint addr kind =>
      refine ⟨rfl, ?_⟩
      simp only [textCall, VitaTarget.addSwBreakpoint, hsession, sessionWrites]
      exact congrArg Kernel.cpu ((w.pool i).setSwBreakpoint_kernel w.kernel addr kind)
    | removeSwBreakpoint addr =>
      refine ⟨rfl, ?_⟩
      simp only [textCall, VitaTarget.removeSwBreakpoint, hsession, sessionWrites]
      exact congrArg Kernel.cpu ((w.pool i).clearSwBreakpoint_kernel w.kernel addr)
    | writeAddrs startAddr data =>
      refine ⟨rfl, ?_⟩
      simp only [textCall, VitaTarget.writeAddrs, hsession, sessionWrites]
      exact congrArg Kernel.cpu ((w.pool i).writeAddrs_kernel w.kernel startAddr data)
    | stepFinished =>
      refine ⟨rfl, ?_⟩
      simp only [textCall, hsession, sessionWrites]
      exact (w.pool i).stepFinished_cpu w.kernel
    | attach pid kind => exact ⟨rfl, congrArg Kernel.cpu (attach_kernel t w pid kind)⟩
    | detach =>
      -- the registers are released before the first write, the process resumed after the last
      refine ⟨(w.pool i).registersReleased_cpu w.kernel, ?_⟩
      simp only [textCall, sessionWrites]
      rw [detach_cpu hsession, GdbSessionInner.clearAll_kernel]

theorem restoresCpu_iff (x : VitaTarget × World) (call : TextCall) :
    RestoresCpu x call ↔ WritesBalance x call := by
  obtain ⟨hfirst, hlast⟩ := textCall_cpu x call
  have hintr := congrArg Prod.fst hfirst
  have hcontext := congrArg Prod.snd hfirst
  have hintr' := congrArg Prod.fst hlast
  have hcontext' := congrArg Prod.snd hlast
  dsimp only [Kernel.cpu] at hintr hcontext hintr' hcontext'
  rw [WritesBalance, ← writeAll_intr_eq_iff, ← hintr', hintr]
  refine ⟨RestoresCpu.intr, fun h => ⟨h, fun hback => ?_⟩⟩
  rw [hcontext', writeAll_context _ _ hback, hcontext]

/-- **`write_user_text` gives the CPU back** exactly where the copy fails, or none of the three
    calls behind it does; and so does a call that writes text, in every run of them, exactly where
    each of its writes does. -/
theorem textCalls_restore_iff (k : Kernel) (x : TextWrite) (t : VitaTarget) (w : World)
    (calls : List TextCall) :
    (x.Restores k ↔ x.Balances k) ∧
      (LTS.Along (fun x call => some (textCall x call)) RestoresCpu (t, w) calls ↔
        LTS.Along (fun x call => some (textCall x call)) WritesBalance (t, w) calls) :=
  ⟨TextWrite.restores_iff,
    LTS.Along.mono (fun x call => (restoresCpu_iff x call).mp) calls,
    LTS.Along.mono (fun x call => (restoresCpu_iff x call).mpr) calls⟩

/-- A word of text, and a kernel that cannot say what the context of the process is. -/
def withoutContext : Kernel :=
  { Kernel.quiet fun _ => ByteMem.write (fun _ => none) 0x1000#32 [0x70#8, 0x47#8, 0x00#8, 0xBF#8]
    with ret := fun n => if n = 1 then 0x80020001#32 else 0#32 }

/-- **A context that cannot be fetched** leaves interrupts suspended for good. -/
theorem writeUserText_not_restores :
    ¬ ∀ (k : Kernel) (x : TextWrite), x.Restores k := by
  intro hclaim
  exact absurd (hclaim withoutContext ⟨7#32, 0x1000#32, patched .thumb16⟩).intr (by decide)

end VitaGdb
