/-
  `gdb/target.rs`: the debug target of one connection.

  A `VitaTarget` owns at most one session of the pool.  `attach` takes a slot, `detach` undoes every
  breakpoint, resumes the process and drops the session; the two entry points of the protocol that
  change the session (`ExtendedMode::attach` and `run`) detach first.  What the protocol adds or
  removes goes to the session's own operations.

  The kernel's answer to the launch call of `run`, the process id, is a parameter here; the path and
  the arguments of that call are in `Gdb.LaunchPath`.
-/
import VitaGdb.Gdb.Pool

namespace VitaGdb

open GdbSessionInner

/-! ## Halting and resuming a process -/

namespace Kernel

/-- The waiting loop of `halt_process`: at most `fuel` looks at the status. -/
def waitSuspended (pid : SceUID) : Nat → Kernel → Except SceError Unit × Kernel
  | 0, k => (.ok (), k)
  | fuel + 1, k =>
    match k.getProcessStatus pid with
    | (.error err, k) => (.error err, k)
    | (.ok status, k) =>
      if status &&& processStatusSuspended != 0#32 then (.ok (), k) else waitSuspended pid fuel k

/-- `halt_process`: the answer is the process's main thread. -/
def haltProcess (k : Kernel) (pid : SceUID) : Except SceError SceUID × Kernel :=
  match k.getProcessStatus pid with
  | (.error err, k) => (.error err, k)
  | (.ok status, k) =>
    if status &&& processStatusSuspended == 0#32 then
      match k.ksceKernelSuspendProcess pid processHaltStatus with
      | (.error err, k) => (.error err, k)
      | (.ok _, k) =>
        match waitSuspended pid 1000 k with
        | (.error err, k) => (.error err, k)
        | (.ok _, k) => k.sceCall "ksceKernelGetProcessMainThread" id
    else k.sceCall "ksceKernelGetProcessMainThread" id

/-- The loop of `resume_process` over the threads. -/
def runThreads : List SceUID → Kernel → Kernel
  | [], k => k
  | tid :: tids, k => runThreads tids (k.ksceKernelChangeThreadSuspendStatus tid 2#32).2

/-- `resume_process`. -/
def resumeProcess (k : Kernel) (pid : SceUID) : Outcome SceError Unit × Kernel :=
  match k.getProcessStatus pid with
  | (.error err, k) => (.err err, k)
  | (.ok status, k) =>
    if status &&& processStatusSuspended == 0#32 then (.ok (), k)
    else
      match k.getThreadIds pid with
      | (.err err, k) => (.err err, k)
      | (.panic, k) => (.panic, k)
      | (.ok tids, k) =>
        match (runThreads tids k).ksceKernelResumeProcess pid with
        | (.error err, k) => (.err err, k)
        | (.ok _, k) => (.ok (), k)

/-- Looking at the status changes nothing. -/
theorem waitSuspended_keeps (pid : SceUID) (fuel : Nat) (k : Kernel) :
    k.Keeps (waitSuspended pid fuel k).2 := by
  induction fuel generalizing k with
  | zero => exact Keeps.refl k
  | succ fuel ih =>
    have hget := k.getProcessStatus_keeps pid
    rw [waitSuspended]
    split
    · next h => rwa [h] at hget
    · next k' h =>
      rw [h] at hget
      split
      · exact hget
      · exact hget.trans (ih k')

/-- Halting a process leaves the text alone and resumes nothing. -/
theorem haltProcess_keepsText (k : Kernel) (pid : SceUID) :
    k.KeepsText (k.haltProcess pid).2 ∧
      ∀ p, k.suspended p = true → (k.haltProcess pid).2.suspended p = true := by
  have hmain : ∀ k : Kernel, k.Keeps (k.sceCall "ksceKernelGetProcessMainThread" id).2 := fun _ =>
    sceCall_keeps (fun _ => rfl) (fun _ => rfl) (fun _ => rfl)
  have hget := k.getProcessStatus_keeps pid
  rw [haltProcess]
  split
  · next h =>
    rw [h] at hget
    exact ⟨hget.keepsText, fun p hp => by rwa [suspended_congr hget.status]⟩
  · next k₁ h =>
    rw [h] at hget
    split
    · have hsuspend :=
        hget.keepsText.trans (k₁.ksceKernelSuspendProcess_keepsText pid processHaltStatus)
      have hstays : ∀ p, k.suspended p = true →
          (k₁.ksceKernelSuspendProcess pid processHaltStatus).2.suspended p = true := fun p hp =>
        suspended_suspendProcess (.inl (by rwa [suspended_congr hget.status]))
      split
      · next h₂ =>
        rw [h₂] at hsuspend hstays
        exact ⟨hsuspend, hstays⟩
      · next k₂ h₂ =>
        rw [h₂] at hsuspend hstays
        have hwait := waitSuspended_keeps pid 1000 k₂
        split
        · next h₃ =>
          rw [h₃] at hwait
          exact ⟨hsuspend.trans hwait.keepsText, fun p hp => by
            rw [suspended_congr hwait.status]; exact hstays p hp⟩
        · next k₃ h₃ =>
          rw [h₃] at hwait
          have hlast := hwait.trans (hmain k₃)
          exact ⟨hsuspend.trans hlast.keepsText, fun p hp => by
            rw [suspended_congr hlast.status]; exact hstays p hp⟩
    · have hlast := hget.trans (hmain k₁)
      exact ⟨hlast.keepsText, fun p hp => by rwa [suspended_congr hlast.status]⟩

end Kernel

/-! ## The target -/

/-- `AttachKind`. -/
inductive AttachKind where
  | attach
  | run
  deriving DecidableEq, Repr

/-- `VitaTarget`: the session is the index of the slot it owns, `continueActions` an `ArrayVec` of
    at most 64 threads. -/
structure VitaTarget where
  session : Option (Fin 4)
  evflag : EventFlagRef
  detached : Bool
  attachKind : AttachKind
  stepAction : Option SceUID
  continueActions : List SceUID
  schedulerLock : Bool
  continueActions_le : continueActions.length ≤ 64

namespace VitaTarget

/-- `VitaTarget::new`. -/
def new (evflag : EventFlagRef) : VitaTarget where
  session := none
  evflag := evflag
  detached := false
  attachKind := .attach
  stepAction := none
  continueActions := []
  schedulerLock := false
  continueActions_le := Nat.zero_le _

/-- `VitaTarget::pid`. -/
def getPid (t : VitaTarget) (pool : SessionPool) : Option SceUID :=
  t.session.bind fun i => (pool i).getPid

/-- `VitaTarget::attach`. -/
def attach (t : VitaTarget) (w : World) (pid : SceUID) (kind : AttachKind) :
    Bool × VitaTarget × World :=
  if t.session.isSome then (false, t, w)
  else
    match GdbSession.new w.pool t.evflag pid with
    | (none, _) => (false, t, w)
    | (some i, pool) =>
      (true, { t with session := some i, detached := false, attachKind := kind },
        { w with pool := pool })

/-- `VitaTarget::detach`: the session is dropped at the end of the block. -/
def detach (t : VitaTarget) (w : World) : VitaTarget × World :=
  match t.session with
  | none => (t, w)
  | some i =>
    let (s, k) := (w.pool i).clearAll w.kernel
    let k := match s.getPid with
      | some pid => (k.resumeProcess pid).2
      | none => k
    let (s, k) := s.drop k
    ({ t with session := none, detached := true }, w.put i s k)

/-- `ExtendedMode::attach`: process 1 stands for "no process" and 0x10005 is refused. -/
def extendedAttach (t : VitaTarget) (w : World) (newPid : SceUID) : Bool × VitaTarget × World :=
  if newPid = 1#32 || newPid = 0x10005#32 then (false, t, w)
  else
    let (t, w) := t.detach w
    match t.attach w newPid .attach with
    | (false, t, w) => (false, t, w)
    | (true, t, w) =>
      match w.kernel.haltProcess newPid with
      | (.error _, k) => (false, t, { w with kernel := k })
      | (.ok _, k) => (true, t, { w with kernel := k })

/-- `run`, from the launched process id on; `started` is whether the process started in time. -/
def runLaunched (t : VitaTarget) (w : World) (pid : SceUID) (started : Bool) :
    Bool × VitaTarget × World :=
  let (t, w) := t.detach w
  match t.attach w pid .run with
  | (false, t, w) => (false, t, w)
  | (true, t, w) =>
    if started then (pid ≠ 0#32, t, w)
    else
      let (t, w) := t.detach w
      (false, t, w)

/-- `add_sw_breakpoint`. -/
def addSwBreakpoint (t : VitaTarget) (w : World) (addr : U32) (kind : ArmBreakpointKind) :
    Bool × World :=
  match t.session with
  | none => (false, w)
  | some i =>
    let (res, s, k) := (w.pool i).setSwBreakpoint w.kernel addr kind
    (res, w.put i s k)

/-- `remove_sw_breakpoint`. -/
def removeSwBreakpoint (t : VitaTarget) (w : World) (addr : U32) : Bool × World :=
  match t.session with
  | none => (false, w)
  | some i =>
    let (res, s, k) := (w.pool i).clearSwBreakpoint w.kernel addr
    (res, w.put i s k)

/-! ## Resume actions -/

/-- `clear_resume_actions`. -/
def clearResumeActions (t : VitaTarget) : VitaTarget :=
  { t with
    stepAction := none
    continueActions := []
    schedulerLock := false
    continueActions_le := Nat.zero_le _ }

/-- `set_resume_action_continue`, without a signal: a full list is an error. -/
def setResumeActionContinue (t : VitaTarget) (tid : SceUID) : Outcome SceError Unit × VitaTarget :=
  if h : t.continueActions.length < 64 then
    (.ok (), { t with
      continueActions := t.continueActions ++ [tid]
      continueActions_le := by rw [List.length_append, List.length_singleton]; omega })
  else (.err ⟨-1, "continue_actions full"⟩, t)

/-- `set_resume_action_step`, without a signal. -/
def setResumeActionStep (t : VitaTarget) (tid : SceUID) : VitaTarget :=
  { t with stepAction := some tid }

/-- `set_resume_action_scheduler_lock`. -/
def setResumeActionSchedulerLock (t : VitaTarget) : VitaTarget := { t with schedulerLock := true }

end VitaTarget

end VitaGdb
