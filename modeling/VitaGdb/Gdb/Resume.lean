/-
  `gdb/multi_thread.rs`: letting the process run again, with or without a step.

  `resume` looks at the process and at the pending exceptions (`resumeStart`), goes through the
  threads (`resumeThread`, one turn of the loop), and lets the process run
  (`ksceKernelResumeProcess`).  For the thread that is to step, a turn predicts where it will go,
  plants a trap there and records the step (`plantStep`).  The three parts are separate functions
  because other threads move between them; `resume` puts them together.

  What each part can do is said once: `resumeStart_threads`, `plantStep_cases`,
  `resumeThread_cases`.
-/
import VitaGdb.ArmNextPc.NextPc
import VitaGdb.Gdb.EventLoop
import VitaGdb.Gdb.Armv7

namespace VitaGdb

open GdbSessionInner
open ArmNextPc (InstDecoder NextPcError RegContext Target nextPc)

/-! ## Registers of a thread -/

/-- Which of the two saved entries holds the user-mode registers. -/
def userEntry (entries : SceArmCpuRegisters × SceArmCpuRegisters) : SceArmCpuRegisters :=
  if entries.1.cpsr &&& 0x1F#32 = 0x10#32 then entries.1 else entries.2

/-- `read_registers` on an attached target; `none` is `TargetError::NonFatal`.  A thread without VFP
    registers is no error: they are filled with a pattern. -/
def readRegisters (k : Kernel) (tid : SceUID) : Option Armv7Regs × Kernel :=
  match k.sceCall "ksceKernelGetThreadCpuRegisters" id with
  | (.error _, k) => (none, k)
  | (.ok _, k) =>
    let thRegs := userEntry (k.cpuRegs tid)
    match k.sceCall "ksceKernelGetVfpRegisterForDebugger" id with
    | (.ok _, k) => (some { thRegs with d := k.vfp tid }, k)
    | (.error err, k) =>
      if err.code = 0x80020008#32 then
        (some { thRegs with d := fun _ => 0x7ff8dead7f80dead#64 }, k)
      else (none, k)

/-- `arm_reg_context`. -/
def armRegContext (regs : SceArmCpuRegisters) : RegContext where
  r := regs.r
  sp := regs.sp
  lr := regs.lr
  pc := regs.pc
  cpsr := regs.cpsr

/-- Where a thread with these registers goes next: `next_pc` with the architectural program
    counter. -/
def predict (decoder : InstDecoder) (regs : SceArmCpuRegisters) (mem : UserMem) :
    Outcome NextPcError Target :=
  let thumb := (regs.cpsr >>> 5) &&& 1#32 != 0#32
  nextPc decoder (armRegContext { regs with pc := regs.pc + if thumb then 4#32 else 8#32 }) mem

/-- The kind of breakpoint for an instruction set. -/
def stepKind (thumb : Bool) : ArmBreakpointKind := if thumb then .thumb16 else .arm32

/-! ## `resume` -/

/-- The body of the loop for the thread that is to step: predict, plant, record. -/
def plantStep (decoder : InstDecoder) (s : GdbSessionInner) (k : Kernel) (pid tid : SceUID) :
    Outcome SceError Unit × GdbSessionInner × Kernel :=
  if tid = 0#32 then (.panic, s, k)
  else
    match readRegisters k tid with
    | (none, k) => (.err ⟨-1, "read_registers"⟩, s, k)
    | (some regs, k) =>
      match k.ksceKernelCopyFromUserProc pid regs.pc 4 with
      | .error _ => (.panic, s, k)
      | .ok _ =>
        match predict decoder regs.toSceArmCpuRegisters (k.mem pid) with
        | .err _ => (.err ⟨-1, "next_pc"⟩, s, k)
        | .panic => (.panic, s, k)
        | .ok (addr, thumb) =>
          -- whether the trap could be planted is not looked at
          let (_, s, k) := s.setSwBreakpoint k addr (stepKind thumb)
          (.ok (), s.setStep tid addr, k)

/-- `STATUS_SUSPEND`. -/
def statusSuspend : U32 := 1#32

/-- `STATUS_RUNNING`. -/
def statusRunning : U32 := 2#32

/-- What the first part of `resume` decides. -/
inductive ResumeStart where
  | returned (res : Outcome SceError Unit)
  | threads (pid : SceUID) (tids : List SceUID)

namespace VitaTarget

/-- `resume`, up to the loop: nothing to do without a process or on a running one, and nothing
    either where an exception is pending and no step is asked for. -/
def resumeStart (t : VitaTarget) (s : GdbSessionInner) (k : Kernel) : ResumeStart × Kernel :=
  match s.getPid with
  | none => (.returned (.ok ()), k)
  | some pid =>
    match k.getProcessStatus pid with
    | (.error err, k) => (.returned (.err err), k)
    | (.ok status, k) =>
      if status &&& Kernel.processStatusSuspended == 0#32 then (.returned (.ok ()), k)
      else if s.hasExcp && t.stepAction.isNone then (.returned (.ok ()), k)
      else
        match k.getThreadIds pid with
        | (.ok tids, k) => (.threads pid tids, k)
        | (.err err, k) => (.returned (.err err), k)
        | (.panic, k) => (.returned .panic, k)

/-- The suspend status a thread is given. -/
def threadStatus (t : VitaTarget) (tid : SceUID) (stepped : Bool) : U32 :=
  let status := if t.schedulerLock then statusSuspend else statusRunning
  let status := if stepped then statusRunning else status
  if t.continueActions.contains tid then statusRunning else status

/-- One turn of the loop of `resume`. -/
def resumeThread (decoder : InstDecoder) (t : VitaTarget) (s : GdbSessionInner) (k : Kernel)
    (pid tid : SceUID) : Outcome SceError Unit × VitaTarget × GdbSessionInner × Kernel :=
  if t.stepAction = some tid then
    let t := { t with stepAction := none }
    match plantStep decoder s k pid tid with
    | (.ok _, s, k) =>
      (.ok (), t, s, (k.ksceKernelChangeThreadSuspendStatus tid (t.threadStatus tid true)).2)
    | (res, s, k) => (res, t, s, k)
  else
    (.ok (), t, s, (k.ksceKernelChangeThreadSuspendStatus tid (t.threadStatus tid false)).2)

/-- The end of `resume`. -/
def resumeRun (k : Kernel) (pid : SceUID) : Outcome SceError Unit × Kernel :=
  match k.ksceKernelResumeProcess pid with
  | (.error err, k) => (.err err, k)
  | (.ok _, k) => (.ok (), k)

/-- The loop of `resume`, and its end. -/
def resumeThreads (decoder : InstDecoder) (pid : SceUID) :
    List SceUID → VitaTarget → GdbSessionInner → Kernel →
      Outcome SceError Unit × VitaTarget × GdbSessionInner × Kernel
  | [], t, s, k =>
    let (res, k) := resumeRun k pid
    (res, t, s, k)
  | tid :: tids, t, s, k =>
    match t.resumeThread decoder s k pid tid with
    | (.ok _, t, s, k) => resumeThreads decoder pid tids t s k
    | (res, t, s, k) => (res, t, s, k)

/-- `resume`. -/
def resume (decoder : InstDecoder) (t : VitaTarget) (s : GdbSessionInner) (k : Kernel) :
    Outcome SceError Unit × VitaTarget × GdbSessionInner × Kernel :=
  match t.resumeStart s k with
  | (.returned res, k) => (res, t, s, k)
  | (.threads pid tids, k) => resumeThreads decoder pid tids t s k

end VitaTarget

/-! ## What each part can do -/

/-- What `read_registers` can do: fail at its first call or at its second, or answer with the VFP
    registers of the thread, or with the pattern for a thread that has none. -/
inductive ReadGoes (k : Kernel) (tid : SceUID) : Option Armv7Regs × Kernel → Prop where
  | noCore (hcore : (k.ret k.calls).slt 0#32 = true) :
      ReadGoes k tid (none, { k with calls := k.calls + 1 })
  | whole (hcore : (k.ret k.calls).slt 0#32 = false)
      (hvfp : (k.ret (k.calls + 1)).slt 0#32 = false) :
      ReadGoes k tid
        (some { userEntry (k.cpuRegs tid) with d := k.vfp tid }, { k with calls := k.calls + 2 })
  | noVfp (hcore : (k.ret k.calls).slt 0#32 = false)
      (hvfp : (k.ret (k.calls + 1)).slt 0#32 = true)
      (hcode : k.ret (k.calls + 1) = 0x80020008#32) :
      ReadGoes k tid
        (some { userEntry (k.cpuRegs tid) with d := fun _ => 0x7ff8dead7f80dead#64 },
          { k with calls := k.calls + 2 })
  | failed (hcore : (k.ret k.calls).slt 0#32 = false)
      (hvfp : (k.ret (k.calls + 1)).slt 0#32 = true)
      (hcode : k.ret (k.calls + 1) ≠ 0x80020008#32) :
      ReadGoes k tid (none, { k with calls := k.calls + 2 })

theorem readRegisters_goes (k : Kernel) (tid : SceUID) : ReadGoes k tid (readRegisters k tid) := by
  rw [readRegisters]
  cases hcore : (k.ret k.calls).slt 0#32 with
  | true =>
    rw [Kernel.sceCall_of_neg hcore]
    exact .noCore hcore
  | false =>
    rw [Kernel.sceCall_of_nonneg hcore]
    dsimp only [id]
    cases hvfp : (k.ret (k.calls + 1)).slt 0#32 with
    | false =>
      rw [Kernel.sceCall_of_nonneg (k := { k with calls := k.calls + 1 }) hvfp]
      exact .whole hcore hvfp
    | true =>
      rw [Kernel.sceCall_of_neg (k := { k with calls := k.calls + 1 }) hvfp]
      dsimp only
      by_cases hcode : k.ret (k.calls + 1) = 0x80020008#32
      · rw [if_pos hcode]
        exact .noVfp hcore hvfp hcode
      · rw [if_neg hcode]
        exact .failed hcore hvfp hcode

/-- Reading the registers of a thread is counted, and changes nothing else. -/
theorem readRegisters_proj {β : Type} (f : Kernel → β)
    (hcount : ∀ k n, f { k with calls := n } = f k) (k : Kernel) (tid : SceUID) :
    f (readRegisters k tid).2 = f k := by
  have hgoes := readRegisters_goes k tid
  generalize readRegisters k tid = answer at hgoes
  cases hgoes with
  | noCore hcore => exact hcount k _
  | whole hcore hvfp => exact hcount k _
  | noVfp hcore hvfp hcode => exact hcount k _
  | failed hcore hvfp hcode => exact hcount k _

theorem readRegisters_keeps (k : Kernel) (tid : SceUID) : k.Keeps (readRegisters k tid).2 where
  mem := readRegisters_proj Kernel.mem (fun _ _ => rfl) k tid
  status := readRegisters_proj Kernel.status (fun _ _ => rfl) k tid
  ret := readRegisters_proj Kernel.ret (fun _ _ => rfl) k tid

/-- The core registers that are read are those of the user entry. -/
theorem readRegisters_some {k k' : Kernel} {tid : SceUID} {regs : Armv7Regs}
    (h : readRegisters k tid = (some regs, k')) :
    regs.toSceArmCpuRegisters = userEntry (k.cpuRegs tid) := by
  have hgoes := readRegisters_goes k tid
  rw [h] at hgoes
  cases hgoes with
  | whole hcore hvfp => rfl
  | noVfp hcore hvfp hcode => rfl

/-- **What `plantStep` can do**: stop with the session as it was, or plant at the predicted address
    and record the step there. -/
theorem plantStep_cases (decoder : InstDecoder) (s : GdbSessionInner) (k : Kernel)
    (pid tid : SceUID) :
    (∃ res k', plantStep decoder s k pid tid = (res, s, k') ∧ res ≠ .ok () ∧ k.Keeps k') ∨
    ∃ addr thumb k', predict decoder (userEntry (k.cpuRegs tid)) (k.mem pid) = .ok (addr, thumb) ∧
      k.Keeps k' ∧ plantStep decoder s k pid tid =
        (.ok (), (s.setSwBreakpoint k' addr (stepKind thumb)).2.1.setStep tid addr,
          (s.setSwBreakpoint k' addr (stepKind thumb)).2.2) := by
  by_cases htid : tid = 0#32
  · exact .inl ⟨.panic, k, by rw [plantStep, if_pos htid], by simp, Kernel.Keeps.refl k⟩
  · have hkeeps := readRegisters_keeps k tid
    rcases hread : readRegisters k tid with ⟨regs, k₁⟩
    rw [hread] at hkeeps
    cases regs with
    | none =>
      refine .inl ⟨.err ⟨-1, "read_registers"⟩, k₁, ?_, by simp, hkeeps⟩
      rw [plantStep, if_neg htid, hread]
    | some regs =>
      have hregs := readRegisters_some hread
      have hmem : k₁.mem pid = k.mem pid := by rw [hkeeps.mem]
      rw [plantStep, if_neg htid, hread]
      dsimp only
      rw [hregs, hmem]
      split
      · exact .inl ⟨_, k₁, rfl, by simp, hkeeps⟩
      · rcases hp : predict decoder (userEntry (k.cpuRegs tid)) (k.mem pid) with
          ⟨addr, thumb⟩ | e | _
        · exact .inr ⟨addr, thumb, k₁, rfl, hkeeps, rfl⟩
        · exact .inl ⟨_, k₁, rfl, by simp, hkeeps⟩
        · exact .inl ⟨_, k₁, rfl, by simp, hkeeps⟩

namespace VitaTarget

/-- The first part only looks. -/
theorem resumeStart_keeps (t : VitaTarget) (s : GdbSessionInner) (k : Kernel) :
    k.Keeps (t.resumeStart s k).2 := by
  rw [resumeStart]
  split
  · exact Kernel.Keeps.refl k
  · next pid _ =>
    have hget := k.getProcessStatus_keeps pid
    split
    · next h => rwa [h] at hget
    · next k₁ h =>
      rw [h] at hget
      have hids := hget.trans (k₁.getThreadIds_keeps pid)
      split
      · exact hget
      · split
        · exact hget
        · split
          · next h₂ => rwa [h₂] at hids
          · next h₂ => rwa [h₂] at hids
          · next h₂ => rwa [h₂] at hids

/-- Where it goes on, the process is suspended, and a pending exception goes with a step. -/
theorem resumeStart_threads {t : VitaTarget} {s : GdbSessionInner} {k : Kernel} {pid : SceUID}
    {tids : List SceUID} (h : (t.resumeStart s k).1 = .threads pid tids) :
    s.getPid = some pid ∧ k.suspended pid = true ∧ (s.hasExcp = true → t.stepAction ≠ none) := by
  rw [resumeStart] at h
  split at h
  · exact absurd h (by simp)
  · next p hpid =>
    have hget := k.getProcessStatus_keeps p
    split at h
    · exact absurd h (by simp)
    · next status k₁ hstatus =>
      rw [hstatus] at hget
      -- the status that was read is the one in the kernel
      have hread : status = k.status p := by
        rw [Kernel.getProcessStatus] at hstatus
        split at hstatus
        · exact absurd (congrArg Prod.fst hstatus) (by simp)
        · next k₂ _ =>
          obtain ⟨hval, hk⟩ := Prod.mk.inj hstatus
          subst hk
          rw [← Except.ok.inj hval]
          exact congrFun hget.status p
      split at h
      · exact absurd h (by simp)
      · next hsusp =>
        split at h
        · exact absurd h (by simp)
        · next hexcp =>
          split at h
          · obtain ⟨rfl, -⟩ := ResumeStart.threads.inj h
            refine ⟨hpid, ?_, fun hhas hnone => hexcp ?_⟩
            · rw [Kernel.suspended, ← hread]
              exact bne_iff_ne.mpr fun heq => hsusp (beq_iff_eq.mpr heq)
            · rw [hhas, hnone]
              rfl
          · exact absurd h (by simp)
          · exact absurd h (by simp)

/-- **What a turn of the loop can do**: leave the session alone, or plant a step for its thread,
    where a step was asked for. -/
theorem resumeThread_cases (decoder : InstDecoder) (t : VitaTarget) (s : GdbSessionInner)
    (k : Kernel) (pid tid : SceUID) :
    (∃ res t' k', t.resumeThread decoder s k pid tid = (res, t', s, k') ∧ k.Keeps k') ∨
    ∃ addr thumb t' k₁ k', t.stepAction = some tid ∧
      predict decoder (userEntry (k.cpuRegs tid)) (k.mem pid) = .ok (addr, thumb) ∧ k.Keeps k₁ ∧
      (s.setSwBreakpoint k₁ addr (stepKind thumb)).2.2.Keeps k' ∧
      t.resumeThread decoder s k pid tid =
        (.ok (), t', (s.setSwBreakpoint k₁ addr (stepKind thumb)).2.1.setStep tid addr, k') := by
  by_cases hstep : t.stepAction = some tid
  · rcases plantStep_cases decoder s k pid tid with
      ⟨res, k₁, heq, hne, hkeeps⟩ | ⟨addr, thumb, k₁, hpredict, hkeeps, heq⟩
    · refine .inl ⟨res, { t with stepAction := none }, k₁, ?_, hkeeps⟩
      rw [resumeThread, if_pos hstep, heq]
      cases res with
      | ok _ => exact absurd rfl hne
      | err e => rfl
      | panic => rfl
    · refine .inr ⟨addr, thumb, { t with stepAction := none }, k₁, _, hstep, hpredict, hkeeps,
        Kernel.ksceKernelChangeThreadSuspendStatus_keeps _ tid
          (threadStatus { t with stepAction := none } tid true), ?_⟩
      rw [resumeThread, if_pos hstep, heq]
  · refine .inl ⟨.ok (), t, _, ?_,
      Kernel.ksceKernelChangeThreadSuspendStatus_keeps k tid (t.threadStatus tid false)⟩
    rw [resumeThread, if_neg hstep]

end VitaTarget

end VitaGdb
