/-
  The kernel as the debugger sees it, and `kernel/utils.rs` on top of it.

  `Kernel` holds what the calls read and change: user memory by process, process and thread
  suspend status, saved thread registers, the hardware debug registers, event flags, the interrupt
  mask and the process context in force.  Each fallible call asks `ret` for its return code, in call
  order (`calls` counts them), so "every pattern of failing kernel calls" is "every `ret`": a
  negative code is an error and the call changes nothing (`sceCall`), any other code lets the call
  do its work.  `NoFail` is the kernel none of whose calls returns a negative code.

  A copy to or from user memory fails besides on a range that is not mapped throughout.  Reading
  user memory asks `ret` for nothing: what a read can do is decided by what is mapped.
-/
import VitaGdb.Kernel.Basic

namespace VitaGdb

/-- `SceArmCpuRegisters`: the saved core registers of a thread. -/
structure SceArmCpuRegisters where
  r : Fin 13 → U32
  sp : U32
  lr : U32
  pc : U32
  cpsr : U32
  fpscr : U32
  deriving Inhabited

/-- What the debugger's kernel calls read and change. -/
structure Kernel where
  /-- The return code of the `n`-th fallible call. -/
  ret : Nat → I32
  /-- The number of fallible calls made so far. -/
  calls : Nat
  /-- The code a copy returns for a range that is not mapped. -/
  badAddr : I32
  /-- User memory, by process. -/
  mem : SceUID → UserMem
  /-- The interrupt mask: how many times interrupts are suspended. -/
  intr : Nat
  /-- The process whose context is in force. -/
  context : SceUID
  /-- The status word of a process. -/
  status : SceUID → U32
  /-- The threads of a process. -/
  threadIds : SceUID → List SceUID
  /-- The suspend status last given to a thread. -/
  threadSuspend : SceUID → U32
  /-- The two register entries saved for a thread. -/
  cpuRegs : SceUID → SceArmCpuRegisters × SceArmCpuRegisters
  /-- The VFP registers of a thread. -/
  vfp : SceUID → Fin 32 → BitVec 64
  /-- The bits of an event flag. -/
  evf : SceUID → U32
  /-- Hardware breakpoint registers, by process: address and control word. -/
  phbp : SceUID → Fin 6 → U32 × U32
  /-- Hardware watchpoint registers, by process: address and control word. -/
  phwp : SceUID → Fin 3 → U32 × U32
  /-- Dipsw 0xe4: cp14 debug is enabled. -/
  dipswDebug : Bool

namespace Kernel

/-- No kernel call returns a negative code. -/
def NoFail (k : Kernel) : Prop := ∀ n, (k.ret n).slt 0#32 = false

/-- `sce_call!`: ask for the call's return code; negative is `Err`, else the call takes effect. -/
def sceCall (k : Kernel) (func : String) (effect : Kernel → Kernel) :
    Except SceError I32 × Kernel :=
  let code := k.ret k.calls
  let k := { k with calls := k.calls + 1 }
  if code.slt 0#32 then (.error ⟨code, func⟩, k) else (.ok code, effect k)

theorem sceCall_ok {k : Kernel} (h : k.NoFail) (func : String) (effect : Kernel → Kernel) :
    k.sceCall func effect = (.ok (k.ret k.calls), effect { k with calls := k.calls + 1 }) := by
  rw [sceCall, if_neg (by rw [h]; simp)]

/-- What most calls leave alone: user memory, the status of every process, and the return codes to
    come. -/
structure Keeps (k k' : Kernel) : Prop where
  mem : k'.mem = k.mem
  status : k'.status = k.status
  ret : k'.ret = k.ret

theorem Keeps.refl (k : Kernel) : k.Keeps k := ⟨rfl, rfl, rfl⟩

theorem Keeps.trans {k₁ k₂ k₃ : Kernel} (h : k₁.Keeps k₂) (h' : k₂.Keeps k₃) : k₁.Keeps k₃ :=
  ⟨h'.mem.trans h.mem, h'.status.trans h.status, h'.ret.trans h.ret⟩

theorem Keeps.noFail {k k' : Kernel} (h : k.Keeps k') : k'.NoFail ↔ k.NoFail := by
  rw [NoFail, NoFail, h.ret]

/-- `Keeps` for a call whose result has been named. -/
theorem Keeps.of_eq {α : Type} {k k' : Kernel} {x : α × Kernel} {res : α} (h : k.Keeps x.2)
    (hx : x = (res, k')) : k.Keeps k' := by
  rwa [hx] at h

/-- What a write of text leaves alone. -/
structure KeepsStatus (k k' : Kernel) : Prop where
  status : k'.status = k.status
  ret : k'.ret = k.ret

/-- What halting and resuming leave alone. -/
structure KeepsText (k k' : Kernel) : Prop where
  mem : k'.mem = k.mem
  ret : k'.ret = k.ret

theorem Keeps.keepsStatus {k k' : Kernel} (h : k.Keeps k') : k.KeepsStatus k' := ⟨h.status, h.ret⟩

theorem Keeps.keepsText {k k' : Kernel} (h : k.Keeps k') : k.KeepsText k' := ⟨h.mem, h.ret⟩

theorem KeepsStatus.trans {k₁ k₂ k₃ : Kernel} (h : k₁.KeepsStatus k₂) (h' : k₂.KeepsStatus k₃) :
    k₁.KeepsStatus k₃ := ⟨h'.status.trans h.status, h'.ret.trans h.ret⟩

theorem KeepsText.trans {k₁ k₂ k₃ : Kernel} (h : k₁.KeepsText k₂) (h' : k₂.KeepsText k₃) :
    k₁.KeepsText k₃ := ⟨h'.mem.trans h.mem, h'.ret.trans h.ret⟩

/-- A call whose code is negative, and one whose code is not. -/
theorem sceCall_of_neg {k : Kernel} (h : (k.ret k.calls).slt 0#32 = true) (func : String)
    (effect : Kernel → Kernel) :
    k.sceCall func effect =
      (.error ⟨k.ret k.calls, func⟩, { k with calls := k.calls + 1 }) := by
  rw [sceCall, if_pos h]

theorem sceCall_of_nonneg {k : Kernel} (h : (k.ret k.calls).slt 0#32 = false) (func : String)
    (effect : Kernel → Kernel) :
    k.sceCall func effect = (.ok (k.ret k.calls), effect { k with calls := k.calls + 1 }) := by
  rw [sceCall, h]
  rfl

/-- A part of the kernel that neither counting the call nor its effect changes. -/
theorem sceCall_proj {β : Type} (f : Kernel → β) {k : Kernel} {func : String}
    {effect : Kernel → Kernel} (hcount : ∀ k n, f { k with calls := n } = f k)
    (heffect : ∀ k, f (effect k) = f k) : f (k.sceCall func effect).2 = f k := by
  rw [sceCall]
  split
  · exact hcount k _
  · exact (heffect _).trans (hcount k _)

/-- Every call is counted, failed or not. -/
theorem sceCall_calls {k : Kernel} {func : String} {effect : Kernel → Kernel}
    (heffect : ∀ k, (effect k).calls = k.calls) : (k.sceCall func effect).2.calls = k.calls + 1 := by
  rw [sceCall]
  split
  · rfl
  · exact heffect _

theorem sceCall_keeps {k : Kernel} {func : String} {effect : Kernel → Kernel}
    (hmem : ∀ k, (effect k).mem = k.mem) (hstatus : ∀ k, (effect k).status = k.status)
    (hret : ∀ k, (effect k).ret = k.ret) : k.Keeps (k.sceCall func effect).2 where
  mem := sceCall_proj Kernel.mem (fun _ _ => rfl) hmem
  status := sceCall_proj Kernel.status (fun _ _ => rfl) hstatus
  ret := sceCall_proj Kernel.ret (fun _ _ => rfl) hret

/-- A kernel on which every call succeeds, with the given user memory and nothing else set up. -/
def quiet (mem : SceUID → UserMem) : Kernel where
  ret := fun _ => 0#32
  calls := 0
  badAddr := 0x80020006#32
  mem := mem
  intr := 0
  context := 0#32
  status := fun _ => 0#32
  threadIds := fun _ => []
  threadSuspend := fun _ => 0#32
  cpuRegs := fun _ => (default, default)
  vfp := fun _ _ => 0#64
  evf := fun _ => 0#32
  phbp := fun _ _ => (0#32, 0#32)
  phwp := fun _ _ => (0#32, 0#32)
  dipswDebug := true

theorem quiet_noFail (mem : SceUID → UserMem) : (quiet mem).NoFail := fun _ => rfl

/-! ## User memory -/

/-- `ksceKernelCopyFromUserProc`. -/
def ksceKernelCopyFromUserProc (k : Kernel) (pid : SceUID) (src : U32) (len : Nat) :
    Except SceError (List U8) :=
  match ByteMem.read (k.mem pid) src len with
  | some bytes => .ok bytes
  | none => .error ⟨k.badAddr, "ksceKernelCopyFromUserProc"⟩

/-- `ksceKernelCopyToUserProcTextDomain`. -/
def ksceKernelCopyToUserProcTextDomain (k : Kernel) (pid : SceUID) (dst : U32) (buf : List U8) :
    Except SceError I32 × Kernel :=
  if (ByteMem.read (k.mem pid) dst buf.length).isSome then
    k.sceCall "ksceKernelCopyToUserProcTextDomain" fun k =>
      { k with mem := Function.update k.mem pid (ByteMem.write (k.mem pid) dst buf) }
  else (.error ⟨k.badAddr, "ksceKernelCopyToUserProcTextDomain"⟩, k)

/-- `ksceKernelCpuSuspendIntr`: the state to resume with, and the mask one deeper. -/
def ksceKernelCpuSuspendIntr (k : Kernel) : Nat × Kernel := (k.intr, { k with intr := k.intr + 1 })

/-- `ksceKernelCpuResumeIntr`. -/
def ksceKernelCpuResumeIntr (k : Kernel) (prevState : Nat) : Kernel := { k with intr := prevState }

/-- `ksceKernelProcessSwitchContext`: put `ctx` in force; the caller keeps the previous one. -/
def ksceKernelProcessSwitchContext (k : Kernel) (ctx : SceUID) : Except SceError I32 × Kernel :=
  k.sceCall "ksceKernelProcessSwitchContext" fun k => { k with context := ctx }

theorem ksceKernelProcessSwitchContext_keeps (k : Kernel) (ctx : SceUID) :
    k.Keeps (k.ksceKernelProcessSwitchContext ctx).2 :=
  sceCall_keeps (fun _ => rfl) (fun _ => rfl) (fun _ => rfl)

/-- `write_user_text`: copy into the text, then invalidate the instruction cache of all cores in the
    context of the process, with interrupts suspended.  Each `?` returns where it stands. -/
def writeUserText (k : Kernel) (pid : SceUID) (dst : U32) (buf : List U8) :
    Except SceError Unit × Kernel :=
  match k.ksceKernelCopyToUserProcTextDomain pid dst buf with
  | (.error err, k) => (.error err, k)
  | (.ok _, k) =>
    let (intr, k) := k.ksceKernelCpuSuspendIntr
    match k.sceCall "ksceKernelProcessGetContext" id with
    | (.error err, k) => (.error err, k)
    | (.ok _, k) =>
      let prevContext := k.context
      match k.ksceKernelProcessSwitchContext pid with
      | (.error err, k) => (.error err, k)
      | (.ok _, k) =>
        match k.ksceKernelProcessSwitchContext prevContext with
        | (.error err, k) => (.error err, k)
        | (.ok _, k) => (.ok (), k.ksceKernelCpuResumeIntr intr)

/-- The kernel after a `writeUserText` that went through: its four calls and the new text. -/
def wrote (k : Kernel) (pid : SceUID) (dst : U32) (buf : List U8) : Kernel :=
  { k with
    calls := k.calls + 4
    mem := Function.update k.mem pid (ByteMem.write (k.mem pid) dst buf) }

@[simp] theorem wrote_mem (k : Kernel) (pid : SceUID) (dst : U32) (buf : List U8) :
    (k.wrote pid dst buf).mem pid = ByteMem.write (k.mem pid) dst buf :=
  Function.update_self pid _ k.mem

@[simp] theorem wrote_noFail {k : Kernel} {pid : SceUID} {dst : U32} {buf : List U8} :
    (k.wrote pid dst buf).NoFail ↔ k.NoFail := Iff.rfl

/-- **A write that meets no failure** changes the text and nothing else. -/
theorem writeUserText_ok {k : Kernel} (h : k.NoFail) {pid : SceUID} {dst : U32} {buf : List U8}
    (hmapped : (ByteMem.read (k.mem pid) dst buf.length).isSome) :
    k.writeUserText pid dst buf = (.ok (), k.wrote pid dst buf) := by
  have hret : ∀ n, (k.ret n).slt 0#32 = false := h
  rw [writeUserText, ksceKernelCopyToUserProcTextDomain, if_pos hmapped, sceCall_ok h]
  simp [ksceKernelCpuSuspendIntr, ksceKernelProcessSwitchContext, ksceKernelCpuResumeIntr, sceCall,
    hret, wrote]

/-- A write that went through has changed the text. -/
theorem writeUserText_mem {k k' : Kernel} {pid : SceUID} {dst : U32} {buf : List U8}
    (h : k.writeUserText pid dst buf = (.ok (), k')) :
    k'.mem = Function.update k.mem pid (ByteMem.write (k.mem pid) dst buf) := by
  -- the copy changes the text, and no later call does
  have hcopy : ∀ {code k₁}, k.ksceKernelCopyToUserProcTextDomain pid dst buf = (.ok code, k₁) →
      k₁.mem = Function.update k.mem pid (ByteMem.write (k.mem pid) dst buf) := by
    intro code k₁ hk₁
    rw [ksceKernelCopyToUserProcTextDomain, sceCall] at hk₁
    split at hk₁
    · dsimp only at hk₁
      split at hk₁
      · exact absurd (congrArg Prod.fst hk₁) (by simp)
      · exact (congrArg (fun x => x.2.mem) hk₁).symm
    · exact absurd (congrArg Prod.fst hk₁) (by simp)
  rw [writeUserText] at h
  split at h
  · exact absurd (congrArg Prod.fst h) (by simp)
  · next k₁ hk₁ =>
    dsimp only at h
    split at h
    · exact absurd (congrArg Prod.fst h) (by simp)
    · next k₂ hk₂ =>
      split at h
      · exact absurd (congrArg Prod.fst h) (by simp)
      · next k₃ hk₃ =>
        split at h
        · exact absurd (congrArg Prod.fst h) (by simp)
        · next k₄ hk₄ =>
          have hlast : k'.mem = k₄.mem := (congrArg (fun x => x.2.mem) h).symm
          have h₂ := (sceCall_keeps (fun _ => rfl) (fun _ => rfl) (fun _ => rfl)).of_eq hk₂
          have h₃ := (ksceKernelProcessSwitchContext_keeps _ _).of_eq hk₃
          have h₄ := (ksceKernelProcessSwitchContext_keeps _ _).of_eq hk₄
          rw [hlast, h₄.mem, h₃.mem, h₂.mem]
          show k₁.mem = _
          exact hcopy hk₁

/-- A part of the kernel that no call of `writeUserText` touches is as it was, wherever it stops. -/
theorem writeUserText_proj {β : Type} (f : Kernel → β) (hcount : ∀ k n, f { k with calls := n } = f k)
    (hmem : ∀ k mem, f { k with mem := mem } = f k) (hintr : ∀ k n, f { k with intr := n } = f k)
    (hcontext : ∀ k pid, f { k with context := pid } = f k) (k : Kernel) (pid : SceUID) (dst : U32)
    (buf : List U8) : f (k.writeUserText pid dst buf).2 = f k := by
  have hcopy : f (k.ksceKernelCopyToUserProcTextDomain pid dst buf).2 = f k := by
    rw [ksceKernelCopyToUserProcTextDomain]
    split
    · exact sceCall_proj f hcount fun k => hmem k _
    · rfl
  have hswitch : ∀ k ctx, f (ksceKernelProcessSwitchContext k ctx).2 = f k := fun k ctx =>
    sceCall_proj f hcount fun k => hcontext k ctx
  rw [writeUserText]
  split
  · next hk₁ => rwa [hk₁] at hcopy
  · next k₁ hk₁ =>
    rw [hk₁] at hcopy
    have hsuspend : f (k₁.ksceKernelCpuSuspendIntr).2 = f k := (hintr k₁ _).trans hcopy
    have hget : f (k₁.ksceKernelCpuSuspendIntr.2.sceCall "ksceKernelProcessGetContext" id).2 = f k :=
      (sceCall_proj f hcount fun _ => rfl).trans hsuspend
    dsimp only
    split
    · next hk₂ => rwa [hk₂] at hget
    · next k₂ hk₂ =>
      rw [hk₂] at hget
      have hin := (hswitch k₂ pid).trans hget
      split
      · next hk₃ => rwa [hk₃] at hin
      · next k₃ hk₃ =>
        rw [hk₃] at hin
        have hout := (hswitch k₃ k₂.context).trans hin
        split
        · next hk₄ => rwa [hk₄] at hout
        · next hk₄ =>
          rw [hk₄] at hout
          exact (hintr _ _).trans hout

/-- A write leaves the processes as they were, wherever it stops. -/
theorem writeUserText_keepsStatus (k : Kernel) (pid : SceUID) (dst : U32) (buf : List U8) :
    k.KeepsStatus (k.writeUserText pid dst buf).2 where
  status := writeUserText_proj Kernel.status (fun _ _ => rfl) (fun _ _ => rfl) (fun _ _ => rfl)
    (fun _ _ => rfl) k pid dst buf
  ret := writeUserText_proj Kernel.ret (fun _ _ => rfl) (fun _ _ => rfl) (fun _ _ => rfl)
    (fun _ _ => rfl) k pid dst buf

/-! ## Processes and threads -/

/-- `PROCESS_HALT_STATUS`. -/
def processHaltStatus : U32 := 0x1C#32

/-- `PROCESS_STATUS_SUSPENDED`. -/
def processStatusSuspended : U32 := 0x10#32

/-- The status word of the process has the suspended bit. -/
def suspended (k : Kernel) (pid : SceUID) : Bool := k.status pid &&& processStatusSuspended != 0

/-- `get_process_status`. -/
def getProcessStatus (k : Kernel) (pid : SceUID) : Except SceError U32 × Kernel :=
  match k.sceCall "ksceKernelGetProcessStatus" id with
  | (.error err, k) => (.error err, k)
  | (.ok _, k) => (.ok (k.status pid), k)

/-- `ksceKernelSuspendProcess`. -/
def ksceKernelSuspendProcess (k : Kernel) (pid : SceUID) (status : U32) :
    Except SceError I32 × Kernel :=
  k.sceCall "ksceKernelSuspendProcess" fun k =>
    { k with status := Function.update k.status pid (k.status pid ||| status) }

/-- `ksceKernelResumeProcess`. -/
def ksceKernelResumeProcess (k : Kernel) (pid : SceUID) : Except SceError I32 × Kernel :=
  k.sceCall "ksceKernelResumeProcess" fun k =>
    { k with status := Function.update k.status pid (k.status pid &&& ~~~processHaltStatus) }

/-- `ksceKernelChangeThreadSuspendStatus`. -/
def ksceKernelChangeThreadSuspendStatus (k : Kernel) (tid : SceUID) (status : U32) :
    Except SceError I32 × Kernel :=
  k.sceCall "ksceKernelChangeThreadSuspendStatus" fun k =>
    { k with threadSuspend := Function.update k.threadSuspend tid status }

/-- `get_thread_ids`: the list fits a buffer of 64 ids, and a full buffer fails the assertion. -/
def getThreadIds (k : Kernel) (pid : SceUID) : Outcome SceError (List SceUID) × Kernel :=
  match k.sceCall "ksceKernelGetThreadIdList" id with
  | (.error err, k) => (.err err, k)
  | (.ok _, k) =>
    let ids := (k.threadIds pid).take 64
    if ids.length < 64 then (.ok ids, k) else (.panic, k)

/-- `halt_for_debug`: stop the faulting thread and its process, whatever the calls return. -/
def haltForDebug (k : Kernel) (pid tid : SceUID) : Kernel :=
  let k := (k.ksceKernelChangeThreadSuspendStatus tid 0x1002#32).2
  (k.ksceKernelSuspendProcess pid processHaltStatus).2

theorem ksceKernelChangeThreadSuspendStatus_keeps (k : Kernel) (tid : SceUID) (status : U32) :
    k.Keeps (k.ksceKernelChangeThreadSuspendStatus tid status).2 :=
  sceCall_keeps (fun _ => rfl) (fun _ => rfl) (fun _ => rfl)

theorem getProcessStatus_keeps (k : Kernel) (pid : SceUID) :
    k.Keeps (k.getProcessStatus pid).2 := by
  have hkeeps : k.Keeps (k.sceCall "ksceKernelGetProcessStatus" id).2 :=
    sceCall_keeps (fun _ => rfl) (fun _ => rfl) (fun _ => rfl)
  unfold getProcessStatus
  split
  · next h => rwa [h] at hkeeps
  · next h => rwa [h] at hkeeps

theorem getThreadIds_keeps (k : Kernel) (pid : SceUID) : k.Keeps (k.getThreadIds pid).2 := by
  have hkeeps : k.Keeps (k.sceCall "ksceKernelGetThreadIdList" id).2 :=
    sceCall_keeps (fun _ => rfl) (fun _ => rfl) (fun _ => rfl)
  unfold getThreadIds
  split
  · next h => rwa [h] at hkeeps
  · next h =>
    rw [h] at hkeeps
    dsimp only
    split <;> exact hkeeps

theorem ksceKernelSuspendProcess_keepsText (k : Kernel) (pid : SceUID) (status : U32) :
    k.KeepsText (k.ksceKernelSuspendProcess pid status).2 :=
  ⟨sceCall_proj Kernel.mem (fun _ _ => rfl) (fun _ => rfl),
    sceCall_proj Kernel.ret (fun _ _ => rfl) (fun _ => rfl)⟩

theorem ksceKernelResumeProcess_keepsText (k : Kernel) (pid : SceUID) :
    k.KeepsText (k.ksceKernelResumeProcess pid).2 :=
  ⟨sceCall_proj Kernel.mem (fun _ _ => rfl) (fun _ => rfl),
    sceCall_proj Kernel.ret (fun _ _ => rfl) (fun _ => rfl)⟩

/-- Halting leaves the text and the coming return codes alone. -/
theorem haltForDebug_keepsText (k : Kernel) (pid tid : SceUID) :
    k.KeepsText (k.haltForDebug pid tid) :=
  (k.ksceKernelChangeThreadSuspendStatus_keeps tid 0x1002#32).keepsText.trans
    (ksceKernelSuspendProcess_keepsText _ pid processHaltStatus)

/-! ### Suspended processes -/

/-- The status decides. -/
theorem suspended_congr {k k' : Kernel} (h : k'.status = k.status) (pid : SceUID) :
    k'.suspended pid = k.suspended pid := by
  rw [suspended, suspended, h]

/-- Suspending a process suspends it and no call of it resumes another. -/
theorem suspended_suspendProcess {k : Kernel} {pid p : SceUID}
    (h : k.suspended p = true ∨ (k.ret k.calls).slt 0#32 = false ∧ p = pid) :
    (k.ksceKernelSuspendProcess pid processHaltStatus).2.suspended p = true := by
  have hbits : ∀ w : U32, (w ||| processHaltStatus) &&& processStatusSuspended ≠ 0#32 := by
    intro w hw
    have hbit := congrArg (fun v => v.getLsbD 4) hw
    simp [processHaltStatus, processStatusSuspended] at hbit
  rw [ksceKernelSuspendProcess, sceCall]
  dsimp only
  split
  · next hfail =>
    rcases h with h | ⟨hok, -⟩
    · exact h
    · exact absurd hfail (by rw [hok]; simp)
  · show (Function.update k.status pid (k.status pid ||| processHaltStatus) p &&&
      processStatusSuspended != 0) = true
    by_cases hp : p = pid
    · rw [hp, Function.update_self]
      exact bne_iff_ne.mpr (hbits _)
    · rw [Function.update_of_ne hp]
      exact h.resolve_right fun hr => hp hr.2

/-- A halted process is suspended where the suspend call goes through, and stays so. -/
theorem suspended_haltForDebug {k : Kernel} {pid p : SceUID} (tid : SceUID)
    (h : k.suspended p = true ∨ (k.ret (k.calls + 1)).slt 0#32 = false ∧ p = pid) :
    (k.haltForDebug pid tid).suspended p = true := by
  have hkeeps := k.ksceKernelChangeThreadSuspendStatus_keeps tid 0x1002#32
  have hcalls : (k.ksceKernelChangeThreadSuspendStatus tid 0x1002#32).2.calls = k.calls + 1 :=
    sceCall_calls fun _ => rfl
  refine suspended_suspendProcess ?_
  rw [suspended_congr hkeeps.status, hkeeps.ret, hcalls]
  exact h

/-! ## Debug registers -/

/-- `is_debug_enabled`. -/
def isDebugEnabled (k : Kernel) : Bool := k.dipswDebug

/-- `sceKernelSetPHBP`. -/
def sceKernelSetPHBP (k : Kernel) (pid : SceUID) (index : Fin 6) (addr control : U32) :
    Except SceError I32 × Kernel :=
  k.sceCall "sceKernelSetPHBP" fun k =>
    { k with
      phbp := Function.update k.phbp pid (Function.update (k.phbp pid) index (addr, control)) }

/-- `sceKernelSetPHWP`. -/
def sceKernelSetPHWP (k : Kernel) (pid : SceUID) (index : Fin 3) (addr control : U32) :
    Except SceError I32 × Kernel :=
  k.sceCall "sceKernelSetPHWP" fun k =>
    { k with
      phwp := Function.update k.phwp pid (Function.update (k.phwp pid) index (addr, control)) }

/-- The kernel after a watchpoint register was set. -/
def withPHWP (k : Kernel) (pid : SceUID) (index : Fin 3) (reg : U32 × U32) : Kernel :=
  { k with
    calls := k.calls + 1
    phwp := Function.update k.phwp pid (Function.update (k.phwp pid) index reg) }

@[simp] theorem withPHWP_phwp (k : Kernel) (pid : SceUID) (index : Fin 3) (reg : U32 × U32) :
    (k.withPHWP pid index reg).phwp pid = Function.update (k.phwp pid) index reg :=
  Function.update_self pid _ k.phwp

/-- A register is set, or the call fails and the register stays. -/
theorem sceKernelSetPHWP_cases (k : Kernel) (pid : SceUID) (index : Fin 3) (addr control : U32) :
    ((k.ret k.calls).slt 0#32 = true ∧ ∃ err, k.sceKernelSetPHWP pid index addr control =
      (.error err, { k with calls := k.calls + 1 })) ∨
    ((k.ret k.calls).slt 0#32 = false ∧ ∃ code, k.sceKernelSetPHWP pid index addr control =
      (.ok code, k.withPHWP pid index (addr, control))) := by
  rw [sceKernelSetPHWP, sceCall]
  cases hret : (k.ret k.calls).slt 0#32 with
  | true => exact .inl ⟨rfl, _, rfl⟩
  | false => exact .inr ⟨rfl, _, rfl⟩

/-- The kernel after a breakpoint register was set. -/
def withPHBP (k : Kernel) (pid : SceUID) (index : Fin 6) (reg : U32 × U32) : Kernel :=
  { k with
    calls := k.calls + 1
    phbp := Function.update k.phbp pid (Function.update (k.phbp pid) index reg) }

@[simp] theorem withPHBP_phbp (k : Kernel) (pid : SceUID) (index : Fin 6) (reg : U32 × U32) :
    (k.withPHBP pid index reg).phbp pid = Function.update (k.phbp pid) index reg :=
  Function.update_self pid _ k.phbp

theorem sceKernelSetPHBP_cases (k : Kernel) (pid : SceUID) (index : Fin 6) (addr control : U32) :
    ((k.ret k.calls).slt 0#32 = true ∧ ∃ err, k.sceKernelSetPHBP pid index addr control =
      (.error err, { k with calls := k.calls + 1 })) ∨
    ((k.ret k.calls).slt 0#32 = false ∧ ∃ code, k.sceKernelSetPHBP pid index addr control =
      (.ok code, k.withPHBP pid index (addr, control))) := by
  rw [sceKernelSetPHBP, sceCall]
  cases hret : (k.ret k.calls).slt 0#32 with
  | true => exact .inl ⟨rfl, _, rfl⟩
  | false => exact .inr ⟨rfl, _, rfl⟩

theorem sceKernelSetPHBP_keeps (k : Kernel) (pid : SceUID) (index : Fin 6) (addr control : U32) :
    k.Keeps (k.sceKernelSetPHBP pid index addr control).2 :=
  sceCall_keeps (fun _ => rfl) (fun _ => rfl) (fun _ => rfl)

theorem sceKernelSetPHWP_keeps (k : Kernel) (pid : SceUID) (index : Fin 3) (addr control : U32) :
    k.Keeps (k.sceKernelSetPHWP pid index addr control).2 :=
  sceCall_keeps (fun _ => rfl) (fun _ => rfl) (fun _ => rfl)

end Kernel

/-! ## Event flags -/

/-- `EventFlagRef`. -/
structure EventFlagRef where
  evfid : SceUID
  deriving DecidableEq, Repr

namespace EventFlagRef

/-- `EventFlagRef::set`: OR the bits in. -/
def set (e : EventFlagRef) (k : Kernel) (bits : U32) : Except SceError I32 × Kernel :=
  k.sceCall "ksceKernelSetEventFlag" fun k =>
    { k with evf := Function.update k.evf e.evfid (k.evf e.evfid ||| bits) }

/-- `EventFlagRef::clear`: the kernel call keeps the bits of its mask, so the mask is `!bits`. -/
def clear (e : EventFlagRef) (k : Kernel) (bits : U32) : Except SceError I32 × Kernel :=
  k.sceCall "ksceKernelClearEventFlag" fun k =>
    { k with evf := Function.update k.evf e.evfid (k.evf e.evfid &&& ~~~bits) }

theorem set_keeps (e : EventFlagRef) (k : Kernel) (bits : U32) : k.Keeps (e.set k bits).2 :=
  Kernel.sceCall_keeps (fun _ => rfl) (fun _ => rfl) (fun _ => rfl)

end EventFlagRef

end VitaGdb
