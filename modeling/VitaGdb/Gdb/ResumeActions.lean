/-
  What is asked of a resume, and what `resume` does about it.

  gdb asks for a resume thread by thread: some are to step, some to go on, and a scheduler lock
  keeps the others where they are.  The target folds these requests into one step action, a list
  and a flag (`requested_target`), and `resume` unfolds them again over the list of the threads.
  `turnCalls` and `loopCalls` are the calls a turn of that loop, and the whole loop, make for their
  threads; that they are what the loop does is `resumeThread_turn` for the session, and
  `resume_threadSuspend` for the kernel.

  `CarriesOut` is the request carried out.  There is one step action, and each request for a step
  replaces it: `resume_carries_out_iff` says that what is asked for is carried out exactly where the
  threads that are to step are one thread, the last one asked for (`StepsOne`).
-/
import VitaGdb.Gdb.System

namespace VitaGdb

open GdbSessionInner
open ArmNextPc (InstDecoder)

/-! ## The calls of the loop -/

/-- What the loop of `resume` does to a thread: `set_step`, and the change of its suspend status. -/
inductive ThreadCall where
  | setStep (tid : SceUID) (addr : U32)
  | changeStatus (tid : SceUID) (status : U32)
  deriving DecidableEq, Repr

/-- The calls of a turn that goes through. -/
def turnCalls (decoder : InstDecoder) (t : VitaTarget) (k : Kernel) (pid tid : SceUID) :
    List ThreadCall :=
  if t.stepAction = some tid then
    match predict decoder (userEntry (k.cpuRegs tid)) (k.mem pid) with
    | .ok (addr, _) => [.setStep tid addr, .changeStatus tid (t.threadStatus tid true)]
    | _ => []
  else [.changeStatus tid (t.threadStatus tid false)]

/-- The calls of the loop, turn by turn. -/
def loopCalls (decoder : InstDecoder) (pid : SceUID) :
    List SceUID → VitaTarget → GdbSessionInner → Kernel → List ThreadCall
  | [], _, _, _ => []
  | tid :: tids, t, s, k =>
    turnCalls decoder t k pid tid ++ match t.resumeThread decoder s k pid tid with
      | (.ok _, t, s, k) => loopCalls decoder pid tids t s k
      | _ => []

/-- The calls `resume` makes for the threads of the process. -/
def resumeCalls (decoder : InstDecoder) (t : VitaTarget) (s : GdbSessionInner) (k : Kernel) :
    List ThreadCall :=
  match t.resumeStart s k with
  | (.returned _, _) => []
  | (.threads pid tids, k) => loopCalls decoder pid tids t s k

/-- The status a call gives the thread. -/
def ThreadCall.statusFor (tid : SceUID) : ThreadCall → Option U32
  | .setStep _ _ => none
  | .changeStatus other status => if other = tid then some status else none

/-- The status the thread is given last. -/
def lastStatus (calls : List ThreadCall) (tid : SceUID) : Option U32 :=
  (calls.filterMap (ThreadCall.statusFor tid)).getLast?

theorem lastStatus_append (a b : List ThreadCall) (tid : SceUID) :
    lastStatus (a ++ b) tid = (lastStatus b tid).or (lastStatus a tid) := by
  rw [lastStatus, List.filterMap_append, List.getLast?_append]
  rfl

/-! ## One turn -/

theorem threadStatus_stepped (t : VitaTarget) (tid : SceUID) :
    t.threadStatus tid true = statusRunning := by
  unfold VitaTarget.threadStatus
  simp only [if_true]
  split <;> rfl

/-- A turn that goes through is a step, recorded at the predicted address, or no more than a change
    of status. -/
theorem resumeThread_turn {decoder : InstDecoder} {t t' : VitaTarget} {s s' : GdbSessionInner}
    {k k' : Kernel} {pid tid : SceUID}
    (h : t.resumeThread decoder s k pid tid = (.ok (), t', s', k')) :
    (t.stepAction = some tid ∧ t' = { t with stepAction := none } ∧ ∃ addr,
      turnCalls decoder t k pid tid = [.setStep tid addr, .changeStatus tid statusRunning] ∧
      s'.step = some (tid, addr)) ∨
    (t.stepAction ≠ some tid ∧ t' = t ∧ s' = s ∧
      turnCalls decoder t k pid tid = [.changeStatus tid (t.threadStatus tid false)]) := by
  rw [VitaTarget.resumeThread] at h
  split at h
  · next hstep =>
    refine .inl ⟨hstep, ?_⟩
    rcases plantStep_cases decoder s k pid tid with
      ⟨res, k₁, heq, hne, -⟩ | ⟨addr, thumb, k₁, hpredict, -, heq⟩
    · rw [heq] at h
      cases res with
      | ok a => exact absurd rfl hne
      | err e => exact absurd (congrArg Prod.fst h) (by simp)
      | panic => exact absurd (congrArg Prod.fst h) (by simp)
    · rw [heq] at h
      obtain ⟨-, rfl, rfl, -⟩ : Outcome.ok () = (Outcome.ok () : Outcome SceError Unit) ∧
        { t with stepAction := none } = t' ∧ _ = s' ∧ _ = k' := by simpa using h
      refine ⟨rfl, addr, ?_, rfl⟩
      rw [turnCalls, if_pos hstep, hpredict, threadStatus_stepped]
  · next hstep =>
    obtain ⟨-, rfl, rfl, -⟩ : Outcome.ok () = (Outcome.ok () : Outcome SceError Unit) ∧
      t = t' ∧ s = s' ∧ _ = k' := by simpa using h
    exact .inr ⟨hstep, rfl, rfl, by rw [turnCalls, if_neg hstep]⟩

/-! ## The loop -/

variable {decoder : InstDecoder} {t : VitaTarget} {s : GdbSessionInner} {k : Kernel} {pid : SceUID}

/-- A loop that goes through starts with a turn that does. -/
theorem resumeThreads_cons {tid : SceUID} {tids : List SceUID}
    (h : (VitaTarget.resumeThreads decoder pid (tid :: tids) t s k).1 = .ok ()) :
    ∃ t' s' k', t.resumeThread decoder s k pid tid = (.ok (), t', s', k') ∧
      (VitaTarget.resumeThreads decoder pid tids t' s' k').1 = .ok () ∧
      VitaTarget.resumeThreads decoder pid (tid :: tids) t s k =
        VitaTarget.resumeThreads decoder pid tids t' s' k' ∧
      loopCalls decoder pid (tid :: tids) t s k =
        turnCalls decoder t k pid tid ++ loopCalls decoder pid tids t' s' k' := by
  rw [VitaTarget.resumeThreads] at h
  rw [VitaTarget.resumeThreads, loopCalls]
  rcases hturn : t.resumeThread decoder s k pid tid with ⟨⟨⟩ | e | _, t', s', k'⟩
  · rw [hturn] at h
    exact ⟨t', s', k', rfl, h, rfl, rfl⟩
  · rw [hturn] at h
    exact absurd h (by simp)
  · rw [hturn] at h
    exact absurd h (by simp)

/-- Without a step action no step is recorded. -/
theorem loopCalls_noStep {tids : List SceUID} (hnone : t.stepAction = none)
    (h : (VitaTarget.resumeThreads decoder pid tids t s k).1 = .ok ()) :
    (VitaTarget.resumeThreads decoder pid tids t s k).2.2.1.step = s.step ∧
      ∀ u addr, .setStep u addr ∉ loopCalls decoder pid tids t s k := by
  induction tids generalizing t s k with
  | nil => exact ⟨rfl, fun _ _ hmem => absurd hmem (by simp [loopCalls])⟩
  | cons tid tids ih =>
    obtain ⟨t', s', k', hturn, hrest, heq, hcalls⟩ := resumeThreads_cons h
    rcases resumeThread_turn hturn with ⟨hstep, -⟩ | ⟨-, rfl, rfl, hown⟩
    · rw [hnone] at hstep
      exact absurd hstep (by simp)
    · obtain ⟨hsame, hno⟩ := ih hnone hrest
      rw [heq, hcalls, hown]
      refine ⟨hsame, fun u addr hmem => ?_⟩
      rcases List.mem_append.mp hmem with hm | hm
      · exact absurd hm (by simp)
      · exact hno u addr hm

/-- **The step of the loop** is that of the step action, where its thread is listed. -/
theorem loopCalls_step {tids : List SceUID}
    (h : (VitaTarget.resumeThreads decoder pid tids t s k).1 = .ok ()) (u : SceUID) :
    (∃ addr, .setStep u addr ∈ loopCalls decoder pid tids t s k ∧
      (VitaTarget.resumeThreads decoder pid tids t s k).2.2.1.step = some (u, addr)) ↔
    t.stepAction = some u ∧ u ∈ tids := by
  induction tids generalizing t s k with
  | nil => simp [loopCalls]
  | cons tid tids ih =>
    obtain ⟨t', s', k', hturn, hrest, heq, hcalls⟩ := resumeThreads_cons h
    rw [heq, hcalls]
    rcases resumeThread_turn hturn with ⟨hstep, rfl, addr, hown, hrecorded⟩ | ⟨hno, rfl, rfl, hown⟩
    · -- the step action is taken, and the rest of the loop records no other step
      obtain ⟨hsame, hnone⟩ := loopCalls_noStep (t := { t with stepAction := none }) rfl hrest
      rw [hown, hsame, hrecorded, hstep]
      constructor
      · rintro ⟨a, hmem, -⟩
        rcases List.mem_append.mp hmem with hm | hm
        · obtain ⟨rfl, -⟩ : u = tid ∧ a = addr := by simpa using hm
          exact ⟨rfl, by simp⟩
        · exact absurd hm (hnone u a)
      · rintro ⟨hu, -⟩
        obtain rfl := Option.some.inj hu
        exact ⟨addr, by simp, rfl⟩
    · have hskip : ∀ a, ThreadCall.setStep u a ∈ turnCalls decoder t' k pid tid ++
          loopCalls decoder pid tids t' s' k' ↔
            .setStep u a ∈ loopCalls decoder pid tids t' s' k' := by
        intro a
        rw [hown]
        simp
      simp only [hskip]
      rw [ih hrest, List.mem_cons]
      constructor
      · rintro ⟨hu, hm⟩
        exact ⟨hu, .inr hm⟩
      · rintro ⟨hu, rfl | hm⟩
        · exact absurd hu hno
        · exact ⟨hu, hm⟩

/-- No status is given to a thread that is not listed. -/
theorem lastStatus_absent {tids : List SceUID} {u : SceUID} (hu : u ∉ tids)
    (h : (VitaTarget.resumeThreads decoder pid tids t s k).1 = .ok ()) :
    lastStatus (loopCalls decoder pid tids t s k) u = none := by
  induction tids generalizing t s k with
  | nil => rfl
  | cons tid tids ih =>
    rw [List.mem_cons, not_or] at hu
    obtain ⟨t', s', k', hturn, hrest, -, hcalls⟩ := resumeThreads_cons h
    rw [hcalls, lastStatus_append, ih hu.2 hrest, Option.none_or]
    have hother : tid ≠ u := Ne.symm hu.1
    rcases resumeThread_turn hturn with ⟨-, -, addr, hown, -⟩ | ⟨-, -, -, hown⟩ <;> rw [hown] <;>
      simp [lastStatus, ThreadCall.statusFor, hother]

/-- **The status of a listed thread** is "running" where its one turn is the step, and what the
    continue actions and the scheduler lock say everywhere else. -/
theorem loopCalls_status {tids : List SceUID} {u : SceUID} (hu : u ∈ tids)
    (h : (VitaTarget.resumeThreads decoder pid tids t s k).1 = .ok ()) :
    lastStatus (loopCalls decoder pid tids t s k) u =
      some (t.threadStatus u (t.stepAction = some u ∧ tids.count u = 1)) := by
  induction tids generalizing t s k with
  | nil => exact absurd hu (by simp)
  | cons tid tids ih =>
    obtain ⟨t', s', k', hturn, hrest, -, hcalls⟩ := resumeThreads_cons h
    have hafter : t'.threadStatus u = t.threadStatus u ∧
        (t.stepAction = some tid ∧ t'.stepAction = none ∨
          t.stepAction ≠ some tid ∧ t'.stepAction = t.stepAction) := by
      rcases resumeThread_turn hturn with ⟨hstep, rfl, -⟩ | ⟨hno, rfl, -⟩
      · exact ⟨rfl, .inl ⟨hstep, rfl⟩⟩
      · exact ⟨rfl, .inr ⟨hno, rfl⟩⟩
    rw [hcalls, lastStatus_append]
    by_cases hlater : u ∈ tids
    · -- a later turn of the same thread has the last word
      rw [ih hlater hrest, Option.some_or, hafter.1]
      congr 2
      by_cases htid : tid = u
      · subst htid
        have hcount := List.count_pos_iff.mpr hlater
        have hmany : (tid :: tids).count tid ≠ 1 := by
          rw [List.count_cons_self]
          omega
        have hnot : t'.stepAction ≠ some tid := by
          rcases hafter.2 with ⟨-, hnone⟩ | ⟨hno, hsame⟩
          · rw [hnone]
            simp
          · rwa [hsame]
        rw [decide_eq_false fun hc => hnot hc.1, decide_eq_false fun hc => hmany hc.2]
      · rw [List.count_cons_of_ne htid]
        rcases hafter.2 with ⟨hs, hnone⟩ | ⟨-, hsame⟩
        · rw [hs, hnone]
          simp [htid]
        · rw [hsame]
    · rw [lastStatus_absent hlater hrest, Option.none_or]
      obtain rfl : u = tid := (List.mem_cons.mp hu).resolve_right hlater
      have hone : (u :: tids).count u = 1 := by
        rw [List.count_cons_self, List.count_eq_zero.mpr hlater]
      rcases resumeThread_turn hturn with ⟨hstep, -, addr, hown, -⟩ | ⟨hno, -, -, hown⟩
      · rw [hown]
        simp [lastStatus, ThreadCall.statusFor, hstep, hone, threadStatus_stepped]
      · rw [hown]
        simp [lastStatus, ThreadCall.statusFor, hno]

/-! ## The calls and the kernel -/

/-- Planting a step gives no thread a status. -/
theorem plantStep_proj {β : Type} (f : Kernel → β) (hcount : ∀ k n, f { k with calls := n } = f k)
    (hmem : ∀ k mem, f { k with mem := mem } = f k) (hintr : ∀ k n, f { k with intr := n } = f k)
    (hcontext : ∀ k pid, f { k with context := pid } = f k) (decoder : InstDecoder)
    (s : GdbSessionInner) (k : Kernel) (pid tid : SceUID) :
    f (plantStep decoder s k pid tid).2.2 = f k := by
  have hread := readRegisters_proj f hcount k tid
  rw [plantStep]
  split
  · rfl
  · split
    · next h => rwa [h] at hread
    · next k₁ h =>
      rw [h] at hread
      split
      · exact hread
      · split
        · exact hread
        · exact hread
        · next addr thumb _ =>
          exact (setSwBreakpoint_proj f hcount hmem hintr hcontext s k₁ addr (stepKind thumb)).trans
            hread

/-- A status call that does not fail gives the thread its status. -/
theorem changeStatus_noFail {k : Kernel} (hk : k.NoFail) (tid : SceUID) (status : U32) :
    (k.ksceKernelChangeThreadSuspendStatus tid status).2.threadSuspend =
      Function.update k.threadSuspend tid status := by
  rw [Kernel.ksceKernelChangeThreadSuspendStatus, Kernel.sceCall_ok hk]

/-- The kernel after a turn that goes through: the status call comes last. -/
theorem resumeThread_kernel {t' : VitaTarget} {s' : GdbSessionInner} {k' : Kernel} {tid : SceUID}
    (h : t.resumeThread decoder s k pid tid = (.ok (), t', s', k')) :
    ∃ k₁ status, (k₁ = k ∨ k₁ = (plantStep decoder s k pid tid).2.2) ∧
      k' = (k₁.ksceKernelChangeThreadSuspendStatus tid status).2 ∧
      ∀ u, lastStatus (turnCalls decoder t k pid tid) u = if tid = u then some status else none := by
  have hturn := h
  rw [VitaTarget.resumeThread] at h
  rcases resumeThread_turn hturn with ⟨hstep, -, addr, hown, -⟩ | ⟨hno, -, -, hown⟩
  · rw [if_pos hstep] at h
    rcases hplant : plantStep decoder s k pid tid with ⟨⟨⟩ | e | _, s₁, k₁⟩ <;>
      simp only [hplant] at h
    · refine ⟨k₁, statusRunning, .inr rfl, ?_, fun u => ?_⟩
      · rw [← threadStatus_stepped { t with stepAction := none } tid]
        exact (congrArg (fun r => r.2.2.2) h).symm
      · rw [hown]
        by_cases hu : tid = u <;> simp [lastStatus, ThreadCall.statusFor, hu]
    · exact absurd (congrArg Prod.fst h) (by simp)
    · exact absurd (congrArg Prod.fst h) (by simp)
  · rw [if_neg hno] at h
    refine ⟨k, t.threadStatus tid false, .inl rfl, (congrArg (fun r => r.2.2.2) h).symm,
      fun u => ?_⟩
    rw [hown]
    by_cases hu : tid = u <;> simp [lastStatus, ThreadCall.statusFor, hu]

/-- **Where no call fails, a thread ends with the status it is given last.** -/
theorem loopCalls_threadSuspend {tids : List SceUID} (hk : k.NoFail)
    (h : (VitaTarget.resumeThreads decoder pid tids t s k).1 = .ok ()) (u : SceUID) :
    (VitaTarget.resumeThreads decoder pid tids t s k).2.2.2.threadSuspend u =
      (lastStatus (loopCalls decoder pid tids t s k) u).getD (k.threadSuspend u) := by
  induction tids generalizing t s k with
  | nil =>
    show (VitaTarget.resumeRun k pid).2.threadSuspend u = k.threadSuspend u
    rw [VitaTarget.resumeRun, Kernel.ksceKernelResumeProcess, Kernel.sceCall_ok hk]
  | cons tid tids ih =>
    obtain ⟨t', s', k', hturn, hrest, heq, hcalls⟩ := resumeThreads_cons h
    obtain ⟨k₁, status, hk₁, rfl, hstatus⟩ := resumeThread_kernel hturn
    have hsame : k₁.threadSuspend = k.threadSuspend ∧ k₁.ret = k.ret := by
      rcases hk₁ with rfl | rfl
      · exact ⟨rfl, rfl⟩
      · exact ⟨plantStep_proj Kernel.threadSuspend (fun _ _ => rfl) (fun _ _ => rfl) (fun _ _ => rfl)
          (fun _ _ => rfl) decoder s k pid tid, plantStep_proj Kernel.ret (fun _ _ => rfl)
          (fun _ _ => rfl) (fun _ _ => rfl) (fun _ _ => rfl) decoder s k pid tid⟩
    have hk₁' : k₁.NoFail := fun n => by rw [hsame.2]; exact hk n
    have hk' := (k₁.ksceKernelChangeThreadSuspendStatus_keeps tid status).noFail.mpr hk₁'
    rw [heq, hcalls, ih hk' hrest, lastStatus_append, hstatus, changeStatus_noFail hk₁' tid status,
      hsame.1]
    cases hlater : lastStatus (loopCalls decoder pid tids t' s' _) u with
    | some st => rfl
    | none =>
      by_cases hu : tid = u
      · rw [hu, Function.update_self]
        simp
      · rw [Function.update_of_ne (Ne.symm hu)]
        simp [hu]

/-- What `resume` leaves in the kernel, where no call fails. -/
theorem resume_threadSuspend {tids : List SceUID} (hk : k.NoFail)
    (hstart : (t.resumeStart s k).1 = .threads pid tids)
    (hresumed : (t.resume decoder s k).1 = .ok ()) (u : SceUID) :
    (t.resume decoder s k).2.2.2.threadSuspend u =
      (lastStatus (resumeCalls decoder t s k) u).getD ((t.resumeStart s k).2.threadSuspend u) := by
  have hkeeps := t.resumeStart_keeps s k
  rcases hrs : t.resumeStart s k with ⟨start, k₁⟩
  rw [hrs] at hstart hkeeps
  obtain rfl : start = .threads pid tids := hstart
  have hresume : t.resume decoder s k = VitaTarget.resumeThreads decoder pid tids t s k₁ := by
    rw [VitaTarget.resume, hrs]
  rw [hresume] at hresumed ⊢
  rw [resumeCalls, hrs]
  exact loopCalls_threadSuspend (hkeeps.noFail.mpr hk) hresumed u

/-! ## What is asked for -/

/-- A call that is accepted. -/
def acceptStep (t : VitaTarget) (action : ResumeAction) : Option VitaTarget :=
  match resumeAction t action with
  | (.ok _, t) => some t
  | _ => none

/-- The thread of a request for a step. -/
def ResumeAction.stepped : ResumeAction → Option SceUID
  | .step tid => some tid
  | _ => none

/-- The thread that was asked to step last. -/
def lastStep (actions : List ResumeAction) : Option SceUID :=
  (actions.filterMap ResumeAction.stepped).getLast?

/-- **What the requests leave in the target**: the last step, every thread that is to go on, and
    whether the others are to stay. -/
theorem requested_target {actions : List ResumeAction} (hclear : .clear ∉ actions)
    {t t' : VitaTarget} (h : LTS.exec acceptStep t actions = some t') :
    t'.stepAction = (lastStep actions).or t.stepAction ∧
      (∀ u, u ∈ t'.continueActions ↔ .goOn u ∈ actions ∨ u ∈ t.continueActions) ∧
      (t'.schedulerLock = true ↔ .schedulerLock ∈ actions ∨ t.schedulerLock = true) := by
  induction actions generalizing t with
  | nil =>
    rw [LTS.exec_nil, Option.some.injEq] at h
    subst h
    simp [lastStep]
  | cons action actions ih =>
    rw [List.mem_cons, not_or] at hclear
    obtain ⟨t₁, haccept, hrest⟩ := LTS.exec_cons_some h
    obtain ⟨hstep, hgoOn, hlock⟩ := ih hclear.2 hrest
    rw [hstep, hlock]
    simp only [hgoOn, List.mem_cons]
    cases action with
    | clear => exact absurd rfl hclear.1
    | step tid =>
      obtain rfl : t.setResumeActionStep tid = t₁ := Option.some.inj haccept
      refine ⟨?_, by simp [VitaTarget.setResumeActionStep], by simp [VitaTarget.setResumeActionStep]⟩
      rw [lastStep, lastStep, List.filterMap_cons]
      show _ = Option.or (List.getLast? (tid :: _)) _
      rw [List.getLast?_cons]
      cases (actions.filterMap ResumeAction.stepped).getLast? <;> rfl
    | goOn tid =>
      rw [acceptStep, resumeAction, VitaTarget.setResumeActionContinue] at haccept
      split at haccept
      · next hgo =>
        split at hgo
        · obtain ⟨-, rfl⟩ := Prod.mk.inj hgo
          obtain rfl := Option.some.inj haccept
          refine ⟨rfl, fun u => ?_, by simp⟩
          simp only [List.mem_append, List.mem_singleton, ResumeAction.goOn.injEq]
          tauto
        · exact absurd (congrArg Prod.fst hgo) (by simp)
      · exact absurd haccept (by simp)
    | schedulerLock =>
      obtain rfl : t.setResumeActionSchedulerLock = t₁ := Option.some.inj haccept
      exact ⟨rfl, by simp [VitaTarget.setResumeActionSchedulerLock],
        by simp [VitaTarget.setResumeActionSchedulerLock]⟩

/-- The requests are carried out on the listed threads: those that are to step are let run, with
    their own step recorded; those that are to go on are let run; and all others are let run
    exactly where no scheduler lock was asked for. -/
structure CarriesOut (actions : List ResumeAction) (tids : List SceUID) (calls : List ThreadCall)
    (s : GdbSessionInner) : Prop where
  stepped : ∀ u ∈ tids, .step u ∈ actions → lastStatus calls u = some statusRunning ∧
    ∃ addr, .setStep u addr ∈ calls ∧ s.step = some (u, addr)
  goesOn : ∀ u ∈ tids, .goOn u ∈ actions → lastStatus calls u = some statusRunning
  others : ∀ u ∈ tids, .step u ∉ actions → .goOn u ∉ actions →
    (lastStatus calls u = some statusRunning ↔ .schedulerLock ∉ actions)

/-- Every listed thread that is to step is the one that was asked for last; and where a scheduler
    lock is asked for, and the thread is not to go on as well, it is listed once. -/
def StepsOne (actions : List ResumeAction) (tids : List SceUID) : Prop :=
  ∀ u ∈ tids, .step u ∈ actions → lastStep actions = some u ∧
    (.schedulerLock ∈ actions → .goOn u ∈ actions ∨ tids.count u = 1)

instance (actions : List ResumeAction) (tids : List SceUID) : Decidable (StepsOne actions tids) :=
  List.decidableBAll (fun u => ResumeAction.step u ∈ actions → lastStep actions = some u ∧
    (ResumeAction.schedulerLock ∈ actions → ResumeAction.goOn u ∈ actions ∨ tids.count u = 1)) tids

theorem lastStep_mem {actions : List ResumeAction} {u : SceUID} (h : lastStep actions = some u) :
    .step u ∈ actions := by
  obtain ⟨action, hmem, haction⟩ := List.mem_filterMap.mp (List.mem_of_getLast? h)
  cases action with
  | step tid =>
    obtain rfl : tid = u := Option.some.inj haction
    exact hmem
  | _ => exact absurd haction (by simp [ResumeAction.stepped])

/-- A thread without the step keeps running where it is to go on or no lock is asked for. -/
theorem threadStatus_running_iff (t : VitaTarget) (u : SceUID) :
    t.threadStatus u false = statusRunning ↔ u ∈ t.continueActions ∨ t.schedulerLock = false := by
  have hne : statusSuspend ≠ statusRunning := by decide
  unfold VitaTarget.threadStatus
  by_cases hgo : u ∈ t.continueActions
  · simp [hgo]
  · cases ht : t.schedulerLock <;> simp [hgo, hne]

/-- **`resume` carries out what is asked for** exactly where one thread is to step at most: for
    every list of requests accepted since the last `clear_resume_actions`, every suspended process
    with its list of threads, and every session and kernel, whenever `resume` lets the process
    run. -/
theorem resume_carries_out_iff (decoder : InstDecoder) (t₀ t : VitaTarget)
    (actions : List ResumeAction) (hclear : .clear ∉ actions)
    (haccepted : LTS.exec acceptStep t₀.clearResumeActions actions = some t)
    (s : GdbSessionInner) (k : Kernel) (pid : SceUID) (tids : List SceUID)
    (hstart : (t.resumeStart s k).1 = .threads pid tids)
    (hresumed : (t.resume decoder s k).1 = .ok ()) :
    CarriesOut actions tids (resumeCalls decoder t s k) (t.resume decoder s k).2.2.1 ↔
      StepsOne actions tids := by
  obtain ⟨hstep, hgoOn, hlock⟩ := requested_target hclear haccepted
  replace hstep : t.stepAction = lastStep actions := by
    simpa [VitaTarget.clearResumeActions] using hstep
  replace hgoOn : ∀ u, u ∈ t.continueActions ↔ .goOn u ∈ actions := by
    simpa [VitaTarget.clearResumeActions] using hgoOn
  replace hlock : t.schedulerLock = true ↔ .schedulerLock ∈ actions := by
    simpa [VitaTarget.clearResumeActions] using hlock
  rcases hrs : t.resumeStart s k with ⟨start, k₁⟩
  rw [hrs] at hstart
  obtain rfl : start = .threads pid tids := hstart
  have hresume : t.resume decoder s k = VitaTarget.resumeThreads decoder pid tids t s k₁ := by
    rw [VitaTarget.resume, hrs]
  have hcalls : resumeCalls decoder t s k = loopCalls decoder pid tids t s k₁ := by
    rw [resumeCalls, hrs]
  rw [hresume] at hresumed
  rw [hresume, hcalls]
  have hrecorded := loopCalls_step hresumed
  have hstatus := fun u hu => loopCalls_status (u := u) hu hresumed
  rw [hstep] at hstatus
  simp only [hstep] at hrecorded
  have hrun : ∀ u, t.threadStatus u false = statusRunning ↔
      .goOn u ∈ actions ∨ .schedulerLock ∉ actions := by
    intro u
    rw [threadStatus_running_iff, hgoOn, ← hlock, Bool.not_eq_true]
  constructor
  · rintro ⟨hstepped, -, -⟩ u hu hasked
    obtain ⟨hrunning, hown⟩ := hstepped u hu hasked
    obtain ⟨hlast, -⟩ := (hrecorded u).mp hown
    refine ⟨hlast, fun hlocked => ?_⟩
    by_contra hnot
    rw [not_or] at hnot
    rw [hstatus u hu, decide_eq_false fun hc => hnot.2 hc.2, Option.some.injEq, hrun] at hrunning
    exact hrunning.elim hnot.1 fun hunlocked => hunlocked hlocked
  · intro hone
    refine ⟨fun u hu hasked => ?_, fun u hu hasked => ?_, fun u hu hnostep hnogo => ?_⟩
    · obtain ⟨hlast, honce⟩ := hone u hu hasked
      refine ⟨?_, (hrecorded u).mpr ⟨hlast, hu⟩⟩
      rw [hstatus u hu, Option.some.injEq]
      by_cases hcount : tids.count u = 1
      · rw [decide_eq_true ⟨hlast, hcount⟩, threadStatus_stepped]
      · rw [decide_eq_false fun hc => hcount hc.2, hrun]
        by_cases hlocked : .schedulerLock ∈ actions
        · exact .inl ((honce hlocked).resolve_right hcount)
        · exact .inr hlocked
    · rw [hstatus u hu, Option.some.injEq]
      cases decide (lastStep actions = some u ∧ tids.count u = 1) with
      | true => exact threadStatus_stepped t u
      | false => exact (hrun u).mpr (.inl hasked)
    · rw [hstatus u hu, decide_eq_false fun hc => hnostep (lastStep_mem hc.1), Option.some.injEq,
        hrun]
      exact or_iff_right hnogo

/-- Thread 9 steps, thread 10 goes on, and no other. -/
def stepAndGoOn : List ResumeAction := [.schedulerLock, .goOn 10#32, .step 9#32]

theorem resume_carries_out_stepAndGoOn :
    ∃ t, LTS.exec acceptStep (VitaTarget.new ⟨3#32⟩).clearResumeActions stepAndGoOn = some t ∧
      CarriesOut stepAndGoOn [9#32, 10#32]
        (resumeCalls straightLine t twoThreadsAttached.session twoThreads)
        (t.resume straightLine twoThreadsAttached.session twoThreads).2.2.1 := by
  let t : VitaTarget := { VitaTarget.new ⟨3#32⟩ with
    stepAction := some 9#32
    continueActions := [10#32]
    schedulerLock := true
    continueActions_le := by decide }
  have hresumed : (t.resume straightLine twoThreadsAttached.session twoThreads).1 = .ok () := by
    decide +kernel
  exact ⟨t, rfl, (resume_carries_out_iff straightLine (VitaTarget.new ⟨3#32⟩) t stepAndGoOn
    (by decide) rfl twoThreadsAttached.session twoThreads 7#32 [9#32, 10#32] rfl hresumed).mpr
    (by decide)⟩

/-- **Two threads that are to step**: only the one asked for last does. -/
theorem resume_not_carries_out :
    ¬ ∀ (decoder : InstDecoder) (t₀ t : VitaTarget) (actions : List ResumeAction)
      (s : GdbSessionInner) (k : Kernel) (pid : SceUID) (tids : List SceUID), .clear ∉ actions →
      LTS.exec acceptStep t₀.clearResumeActions actions = some t → k.NoFail →
      (t.resumeStart s k).1 = .threads pid tids → (t.resume decoder s k).1 = .ok () →
      CarriesOut actions tids (resumeCalls decoder t s k) (t.resume decoder s k).2.2.1 := by
  intro hclaim
  let t := ((VitaTarget.new ⟨3#32⟩).clearResumeActions.setResumeActionStep 9#32).setResumeActionStep
    10#32
  have hcarries := hclaim straightLine (VitaTarget.new ⟨3#32⟩) t [.step 9#32, .step 10#32]
    twoThreadsAttached.session twoThreads 7#32 [9#32, 10#32] (by decide) rfl twoThreads_noFail rfl
    (by decide +kernel)
  obtain ⟨-, addr, -, hstep⟩ := hcarries.stepped 9#32 (by simp) (by simp)
  have hrecorded : (t.resume straightLine twoThreadsAttached.session twoThreads).2.2.1.step =
      some (10#32, 0x2004#32) := by decide +kernel
  have hsame : some (10#32, 0x2004#32) = some (9#32, addr) := hrecorded.symm.trans hstep
  exact absurd hsame (by simp)

end VitaGdb
