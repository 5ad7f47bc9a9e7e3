/-
  A debugged process: the threads of the process, the handlers of their exceptions, and the worker
  that talks to gdb.

  One session is attached.  The worker is between two packets (`idle`), in the loop of `resume`
  (`resuming`), or waiting for an event (`polling`).  While the process is not suspended its
  threads run (`execute`) and raise exceptions (`fault`); each exception is handled on its own
  thread, in two steps other threads and the worker can come between: up to the halt (`halt`) and
  after it (`queue`).

  `debugStep` is one step of any of them; a run is any list of steps.  `resume` is the run of its
  three events where nothing comes between them (`resume_run`).  `added` is not part of the
  program: it collects the addresses gdb has added a software breakpoint at and not removed.

  `debugStep_effect` says what a step can do; `debugStep_breakpoints` is the part of it that the
  breakpoints and the recorded step see, which four events only can touch.
-/
import VitaGdb.Lib.Runs
import VitaGdb.Gdb.Handlers
import VitaGdb.Gdb.Resume
import VitaGdb.Gdb.Reuse

namespace VitaGdb

open GdbSessionInner
open ArmNextPc (InstDecoder)

/-! ## States -/

/-- Where the worker is. -/
inductive Worker where
  | idle
  /-- In `resume`, with these threads to go through. -/
  | resuming (pid : SceUID) (todo : List SceUID)
  | polling
  /-- Out of its loop: an error or a panic. -/
  | ended
  deriving DecidableEq

/-- The worker is in the loop of `resume`. -/
def Worker.isResuming : Worker → Bool
  | .resuming _ _ => true
  | _ => false

/-- The worker goes on after a call that answered `Ok`. -/
def Worker.after (next : Worker) : Outcome SceError Unit → Worker
  | .ok _ => next
  | _ => .ended

/-- How far the handler of an exception is. -/
inductive HandlerPhase where
  | faulted (vector : ExcpVector) (context : SceExcpmgrExceptionContext)
  | halted (halted : Halted)

/-- A handler that runs, on the thread that raised the exception. -/
structure Handler where
  tid : SceUID
  phase : HandlerPhase

/-- The handler has halted its thread and the process, and has not queued anything yet. -/
def Handler.isHalted (h : Handler) : Bool :=
  match h.phase with
  | .halted _ => true
  | .faulted _ _ => false

structure DebugState where
  session : GdbSessionInner
  kernel : Kernel
  target : VitaTarget
  worker : Worker
  handlers : List Handler
  added : Finset U32

/-- The process of the session is suspended. -/
def DebugState.suspended (x : DebugState) : Bool := x.kernel.suspended x.session.pid

/-- A session just attached, with a target in any state. -/
def attachedState (t : VitaTarget) (pid : SceUID) (evflag : EventFlagRef) (k : Kernel) :
    DebugState where
  session := claimed uninit pid evflag
  kernel := k
  target := t
  worker := .idle
  handlers := []
  added := ∅

/-! ## Events -/

/-- The requests that go to the debug registers. -/
inductive HwCall where
  | addHwBreakpoint (addr : U32)
  | removeHwBreakpoint (addr : U32)
  | addHwWatchpoint (addr len : U32) (kind : WatchKind)
  | removeHwWatchpoint (addr : U32)

/-- `add_hw_breakpoint` and its siblings; an error is an answer of its own. -/
def hwCall (s : GdbSessionInner) (k : Kernel) : HwCall → GdbSessionInner × Kernel
  | .addHwBreakpoint addr => (s.setHwBreakpoint k addr).2
  | .removeHwBreakpoint addr => (s.clearHwBreakpoint k addr).2
  | .addHwWatchpoint addr len kind => (s.setHwWatchpoint k addr len kind).2
  | .removeHwWatchpoint addr => (s.clearHwWatchpoint k addr).2

/-- The parts of a `vCont` packet. -/
inductive ResumeAction where
  | clear
  | step (tid : SceUID)
  | goOn (tid : SceUID)
  | schedulerLock
  deriving DecidableEq

/-- `clear_resume_actions` and the `set_resume_action_*` functions. -/
def resumeAction (t : VitaTarget) : ResumeAction → Outcome SceError Unit × VitaTarget
  | .clear => (.ok (), t.clearResumeActions)
  | .step tid => (.ok (), t.setResumeActionStep tid)
  | .goOn tid => t.setResumeActionContinue tid
  | .schedulerLock => (.ok (), t.setResumeActionSchedulerLock)

inductive DebugEvent where
  | addSwBreakpoint (addr : U32) (kind : ArmBreakpointKind)
  | removeSwBreakpoint (addr : U32)
  | hardware (call : HwCall)
  | action (action : ResumeAction)
  /-- `resume`, up to the loop. -/
  | resume
  /-- One turn of the loop. -/
  | thread
  /-- The end of `resume`. -/
  | run
  /-- One turn of `next_event_or_byte`, or of `next_byte` while idle. -/
  | poll
  /-- Ctrl-C. -/
  | interrupt
  /-- The threads run: any registers, any threads. -/
  | execute (regs : SceUID → SceArmCpuRegisters × SceArmCpuRegisters) (tids : List SceUID)
  | fault (vector : ExcpVector) (tid : SceUID) (context : SceExcpmgrExceptionContext)
  | halt (n : Nat)
  | queue (n : Nat)
  /-- The process is killed. -/
  | exit

/-- What the worker does after a turn of `next_event_or_byte`: a stop goes to gdb. -/
def Worker.polled : Outcome SceError (Option MultiThreadStopReason) → Worker
  | .ok none => .polling
  | .ok (some _) => .idle
  | _ => .ended

theorem Worker.polled_not_resuming (stop : Outcome SceError (Option MultiThreadStopReason)) :
    (Worker.polled stop).isResuming = false := by
  rcases stop with (_ | reason) | e | _ <;> rfl

/-- One step of the system. -/
def debugStep (decoder : InstDecoder) (x : DebugState) : DebugEvent → Option DebugState
  | .addSwBreakpoint addr kind =>
    match x.worker with
    | .idle =>
      let (answer, s, k) := x.session.setSwBreakpoint x.kernel addr kind
      some { x with
        session := s
        kernel := k
        added := if answer then insert addr x.added else x.added }
    | _ => none
  | .removeSwBreakpoint addr =>
    match x.worker with
    | .idle =>
      let (_, s, k) := x.session.clearSwBreakpoint x.kernel addr
      some { x with session := s, kernel := k, added := x.added.erase addr }
    | _ => none
  | .hardware call =>
    match x.worker with
    | .idle =>
      let (s, k) := hwCall x.session x.kernel call
      some { x with session := s, kernel := k }
    | _ => none
  | .action action =>
    match x.worker with
    | .idle =>
      let (res, t) := resumeAction x.target action
      some { x with target := t, worker := Worker.idle.after res }
    | _ => none
  | .resume =>
    match x.worker with
    | .idle =>
      match x.target.resumeStart x.session x.kernel with
      | (.returned res, k) => some { x with kernel := k, worker := Worker.polling.after res }
      | (.threads pid tids, k) => some { x with kernel := k, worker := .resuming pid tids }
    | _ => none
  | .thread =>
    match x.worker with
    | .resuming pid (tid :: todo) =>
      let (res, t, s, k) := x.target.resumeThread decoder x.session x.kernel pid tid
      some { x with
        target := t
        session := s
        kernel := k
        worker := (Worker.resuming pid todo).after res }
    | _ => none
  | .run =>
    match x.worker with
    | .resuming pid [] =>
      let (res, k) := VitaTarget.resumeRun x.kernel pid
      some { x with kernel := k, worker := Worker.polling.after res }
    | _ => none
  | .poll =>
    match x.worker with
    | .idle =>
      let (exited, s) := x.session.popExited
      some { x with session := s, worker := if exited then .ended else .idle }
    | .polling =>
      let (stop, s) := x.session.popStop
      some { x with session := s, worker := Worker.polled stop }
    | _ => none
  | .interrupt =>
    match x.worker with
    | .polling =>
      let (res, k) := interruptTarget x.kernel x.session.getPid
      some { x with kernel := k, worker := Worker.polled (res >>= fun reason => .ok (some reason)) }
    | _ => none
  | .execute regs tids =>
    if x.suspended then none
    else some { x with
      kernel := { x.kernel with
        cpuRegs := regs
        threadIds := Function.update x.kernel.threadIds x.session.pid tids } }
  | .fault vector tid context =>
    if x.suspended then none
    else some { x with handlers := x.handlers ++ [⟨tid, .faulted vector context⟩] }
  | .halt n =>
    match x.handlers[n]? with
    | some ⟨tid, .faulted vector context⟩ =>
      match vectorHalts vector x.session x.kernel x.session.pid tid context with
      | none => some { x with handlers := x.handlers.eraseIdx n }
      | some halted =>
        some { x with
          kernel := x.kernel.haltForDebug x.session.pid tid
          handlers := x.handlers.set n ⟨tid, .halted halted⟩ }
    | _ => none
  | .queue n =>
    match x.handlers[n]? with
    | some ⟨tid, .halted halted⟩ =>
      let (_, s, k) := x.session.queue x.kernel tid halted
      some { x with session := s, kernel := k, handlers := x.handlers.eraseIdx n }
    | _ => none
  | .exit =>
    let (s, k) := x.session.pushExited x.kernel
    some { x with session := s, kernel := k }

/-! ## `resume` as a run -/

/-- The loop of `resume` with nothing in between: a turn for each thread, and the end. -/
theorem resumeThreads_run (decoder : InstDecoder) (pid : SceUID) (tids : List SceUID) :
    ∀ x : DebugState, x.worker = .resuming pid tids →
      ∃ events y res, (∀ e ∈ events, e = .thread ∨ e = .run) ∧
        LTS.exec (debugStep decoder) x events = some y ∧
        VitaTarget.resumeThreads decoder pid tids x.target x.session x.kernel =
          (res, y.target, y.session, y.kernel) ∧
        y.worker = Worker.polling.after res := by
  induction tids with
  | nil =>
    intro x hworker
    rcases hrun : VitaTarget.resumeRun x.kernel pid with ⟨res, k⟩
    refine ⟨[.run], { x with kernel := k, worker := Worker.polling.after res }, res, by simp, ?_,
      ?_, rfl⟩
    · simp only [LTS.exec_cons, debugStep, hworker, hrun, Option.bind_some, LTS.exec_nil]
    · rw [VitaTarget.resumeThreads, hrun]
  | cons tid tids ih =>
    intro x hworker
    rcases hturn : x.target.resumeThread decoder x.session x.kernel pid tid with ⟨res, t, s, k⟩
    have hthread : debugStep decoder x .thread = some { x with
        target := t
        session := s
        kernel := k
        worker := (Worker.resuming pid tids).after res } := by
      simp only [debugStep, hworker, hturn]
    cases res with
    | ok _ =>
      obtain ⟨events, y, res, hevents, hexec, hloop, hend⟩ := ih { x with
        target := t
        session := s
        kernel := k
        worker := .resuming pid tids } rfl
      refine ⟨.thread :: events, y, res, by simpa using hevents, ?_, ?_, hend⟩
      · rw [LTS.exec_cons, hthread]
        exact hexec
      · rw [VitaTarget.resumeThreads, hturn]
        exact hloop
    | err e =>
      refine ⟨[.thread], _, .err e, by simp, by rw [LTS.exec_cons, hthread]; rfl, ?_, rfl⟩
      rw [VitaTarget.resumeThreads, hturn]
    | panic =>
      refine ⟨[.thread], _, .panic, by simp, by rw [LTS.exec_cons, hthread]; rfl, ?_, rfl⟩
      rw [VitaTarget.resumeThreads, hturn]

/-- **`resume` is the run of its events**, where nothing comes between them. -/
theorem resume_run (decoder : InstDecoder) {x : DebugState} (hidle : x.worker = .idle) :
    ∃ events y res, (∀ e ∈ events, e = .thread ∨ e = .run) ∧
      LTS.exec (debugStep decoder) x (.resume :: events) = some y ∧
      x.target.resume decoder x.session x.kernel = (res, y.target, y.session, y.kernel) ∧
      y.worker = Worker.polling.after res := by
  rcases hstart : x.target.resumeStart x.session x.kernel with ⟨res | ⟨pid, tids⟩, k⟩
  · refine ⟨[], { x with kernel := k, worker := Worker.polling.after res }, res, by simp, ?_, ?_,
      rfl⟩
    · simp only [LTS.exec_cons, debugStep, hidle, hstart, Option.bind_some, LTS.exec_nil]
    · rw [VitaTarget.resume, hstart]
  · obtain ⟨events, y, res, hevents, hexec, hloop, hend⟩ := resumeThreads_run decoder pid tids
      { x with kernel := k, worker := .resuming pid tids } rfl
    refine ⟨events, y, res, hevents, ?_, ?_, hend⟩
    · rw [LTS.exec_cons]
      simp only [debugStep, hidle, hstart]
      exact hexec
    · rw [VitaTarget.resume, hstart]
      exact hloop

/-! ## What a step can do -/

/-- Ctrl-C leaves the text alone and resumes nothing. -/
theorem interruptTarget_keepsText (k : Kernel) (pid : Option SceUID) :
    k.KeepsText (interruptTarget k pid).2 ∧
      ∀ p, k.suspended p = true → (interruptTarget k pid).2.suspended p = true := by
  cases pid with
  | none => exact ⟨(Kernel.Keeps.refl k).keepsText, fun _ hp => hp⟩
  | some pid =>
    have hhalt := k.haltProcess_keepsText pid
    rw [interruptTarget]
    split
    · next h => rwa [h] at hhalt
    · next h => rwa [h] at hhalt

/-- The step relation: every way an event can go, with what it depends on. -/
inductive DebugEffect (decoder : InstDecoder) (x : DebugState) :
    DebugEvent → DebugState → Prop where
  | added (addr : U32) (kind : ArmBreakpointKind) (hidle : x.worker = .idle) :
    DebugEffect decoder x (.addSwBreakpoint addr kind) { x with
      session := (x.session.setSwBreakpoint x.kernel addr kind).2.1
      kernel := (x.session.setSwBreakpoint x.kernel addr kind).2.2
      added := if (x.session.setSwBreakpoint x.kernel addr kind).1 then insert addr x.added
        else x.added }
  | removed (addr : U32) (hidle : x.worker = .idle) :
    DebugEffect decoder x (.removeSwBreakpoint addr) { x with
      session := (x.session.clearSwBreakpoint x.kernel addr).2.1
      kernel := (x.session.clearSwBreakpoint x.kernel addr).2.2
      added := x.added.erase addr }
  | hardware (call : HwCall) (hidle : x.worker = .idle) :
    DebugEffect decoder x (.hardware call) { x with
      session := (hwCall x.session x.kernel call).1
      kernel := (hwCall x.session x.kernel call).2 }
  | acted (action : ResumeAction) (t : VitaTarget) (w : Worker) (hidle : x.worker = .idle)
      (hw : w = .idle ∨ w = .ended) :
    DebugEffect decoder x (.action action) { x with target := t, worker := w }
  | notResumed (k : Kernel) (w : Worker) (hidle : x.worker = .idle) (hkeeps : x.kernel.Keeps k)
      (hw : w = .polling ∨ w = .ended) :
    DebugEffect decoder x .resume { x with kernel := k, worker := w }
  | resumed (k : Kernel) (pid : SceUID) (tids : List SceUID) (hidle : x.worker = .idle)
      (hstart : (x.target.resumeStart x.session x.kernel).1 = .threads pid tids)
      (hkeeps : x.kernel.Keeps k) :
    DebugEffect decoder x .resume { x with kernel := k, worker := .resuming pid tids }
  | passed (pid tid : SceUID) (todo : List SceUID) (t : VitaTarget) (k : Kernel) (w : Worker)
      (hworker : x.worker = .resuming pid (tid :: todo)) (hkeeps : x.kernel.Keeps k)
      (hw : w = .resuming pid todo ∨ w = .ended) :
    DebugEffect decoder x .thread { x with target := t, kernel := k, worker := w }
  | planted (pid tid : SceUID) (todo : List SceUID) (addr : U32) (thumb : Bool) (t : VitaTarget)
      (k₁ k : Kernel) (hworker : x.worker = .resuming pid (tid :: todo))
      (hstep : x.target.stepAction = some tid)
      (hpredict : predict decoder (userEntry (x.kernel.cpuRegs tid)) (x.kernel.mem pid) =
        .ok (addr, thumb))
      (hkeeps₁ : x.kernel.Keeps k₁)
      (hkeeps : (x.session.setSwBreakpoint k₁ addr (stepKind thumb)).2.2.Keeps k) :
    DebugEffect decoder x .thread { x with
      target := t
      session := (x.session.setSwBreakpoint k₁ addr (stepKind thumb)).2.1.setStep tid addr
      kernel := k
      worker := .resuming pid todo }
  | ran (pid : SceUID) (k : Kernel) (w : Worker) (hworker : x.worker = .resuming pid [])
      (hkeeps : x.kernel.KeepsText k) (hw : w = .polling ∨ w = .ended) :
    DebugEffect decoder x .run { x with kernel := k, worker := w }
  | polledIdle (w : Worker) (hidle : x.worker = .idle) (hw : w = .idle ∨ w = .ended) :
    DebugEffect decoder x .poll { x with session := x.session.popExited.2, worker := w }
  | polled (hworker : x.worker = .polling) :
    DebugEffect decoder x .poll { x with
      session := x.session.popStop.2
      worker := Worker.polled x.session.popStop.1 }
  | interrupted (k : Kernel) (w : Worker) (hworker : x.worker = .polling)
      (hkeeps : x.kernel.KeepsText k)
      (hstays : ∀ p, x.kernel.suspended p = true → k.suspended p = true)
      (hw : w = .idle ∨ w = .ended) :
    DebugEffect decoder x .interrupt { x with kernel := k, worker := w }
  | executed (regs : SceUID → SceArmCpuRegisters × SceArmCpuRegisters) (tids : List SceUID)
      (k : Kernel) (hrunning : x.suspended = false) (hkeeps : x.kernel.Keeps k) :
    DebugEffect decoder x (.execute regs tids) { x with kernel := k }
  | faulted (vector : ExcpVector) (tid : SceUID) (context : SceExcpmgrExceptionContext)
      (hrunning : x.suspended = false) :
    DebugEffect decoder x (.fault vector tid context) { x with
      handlers := x.handlers ++ [⟨tid, .faulted vector context⟩] }
  | notHandled (n : Nat) :
    DebugEffect decoder x (.halt n) { x with handlers := x.handlers.eraseIdx n }
  | halted (n : Nat) (tid : SceUID) (halted : Halted) :
    DebugEffect decoder x (.halt n) { x with
      kernel := x.kernel.haltForDebug x.session.pid tid
      handlers := x.handlers.set n ⟨tid, .halted halted⟩ }
  | completed (n : Nat) (tid stepTid : SceUID) (addr : U32) (insn : List U8) (thumb : Bool)
      (hn : x.handlers[n]? = some ⟨tid, .halted (.brk addr insn thumb)⟩)
      (hstep : x.session.step = some (stepTid, addr)) :
    DebugEffect decoder x (.queue n) { x with
      session := (x.session.stepFinished x.kernel).2.1
      kernel := (x.session.stepFinished x.kernel).2.2
      handlers := x.handlers.eraseIdx n }
  | queued (n : Nat) (tid : SceUID) (halted : Halted)
      (hn : x.handlers[n]? = some ⟨tid, .halted halted⟩)
      (hnot : x.session.completes halted = false) :
    DebugEffect decoder x (.queue n) { x with
      session := (x.session.pushExcp x.kernel (queuedEvent tid halted)).1
      kernel := (x.session.pushExcp x.kernel (queuedEvent tid halted)).2
      handlers := x.handlers.eraseIdx n }
  | exited : DebugEffect decoder x .exit { x with
      session := (x.session.pushExited x.kernel).1
      kernel := (x.session.pushExited x.kernel).2 }

theorem Worker.after_cases (next : Worker) (res : Outcome SceError Unit) :
    next.after res = next ∨ next.after res = .ended := by
  cases res with
  | ok _ => exact .inl rfl
  | err _ => exact .inr rfl
  | panic => exact .inr rfl

theorem resumeRun_keepsText (k : Kernel) (pid : SceUID) :
    k.KeepsText (VitaTarget.resumeRun k pid).2 := by
  have hkeeps := k.ksceKernelResumeProcess_keepsText pid
  rw [VitaTarget.resumeRun]
  split
  · next h => rwa [h] at hkeeps
  · next h => rwa [h] at hkeeps

/-- **What a step can do.** -/
theorem debugStep_effect {decoder : InstDecoder} {x y : DebugState} {e : DebugEvent}
    (hy : debugStep decoder x e = some y) : DebugEffect decoder x e y := by
  cases e with
  | addSwBreakpoint addr kind =>
    simp only [debugStep] at hy
    split at hy
    · next hworker =>
      rw [← Option.some.inj hy]
      exact .added addr kind hworker
    · exact absurd hy (by simp)
  | removeSwBreakpoint addr =>
    simp only [debugStep] at hy
    split at hy
    · next hworker =>
      rw [← Option.some.inj hy]
      exact .removed addr hworker
    · exact absurd hy (by simp)
  | hardware call =>
    simp only [debugStep] at hy
    split at hy
    · next hworker =>
      rw [← Option.some.inj hy]
      exact .hardware call hworker
    · exact absurd hy (by simp)
  | action action =>
    cases hworker : x.worker with
    | idle =>
      simp only [debugStep, hworker, Option.some.injEq] at hy
      subst hy
      exact .acted action _ _ hworker (Worker.after_cases _ _)
    | _ => simp [debugStep, hworker] at hy
  | resume =>
    cases hworker : x.worker with
    | idle =>
      have hkeeps := x.target.resumeStart_keeps x.session x.kernel
      simp only [debugStep, hworker] at hy
      rcases hstart : x.target.resumeStart x.session x.kernel with ⟨start, k⟩
      rw [hstart] at hy hkeeps
      cases start with
      | returned res =>
        rw [← Option.some.inj hy]
        exact .notResumed k _ hworker hkeeps (Worker.after_cases _ _)
      | threads pid tids =>
        rw [← Option.some.inj hy]
        exact .resumed k pid tids hworker (by rw [hstart]) hkeeps
    | _ => simp [debugStep, hworker] at hy
  | thread =>
    cases hworker : x.worker with
    | resuming pid todo =>
      cases todo with
      | nil => simp [debugStep, hworker] at hy
      | cons tid todo =>
        simp only [debugStep, hworker, Option.some.injEq] at hy
        rcases x.target.resumeThread_cases decoder x.session x.kernel pid tid with
          ⟨res, t, k, heq, hkeeps⟩ | ⟨addr, thumb, t, k₁, k, hstep, hpredict, hkeeps₁, hkeeps, heq⟩
        · rw [heq] at hy
          subst hy
          exact .passed pid tid todo t k _ hworker hkeeps (Worker.after_cases _ _)
        · rw [heq] at hy
          subst hy
          exact .planted pid tid todo addr thumb t k₁ k hworker hstep hpredict hkeeps₁ hkeeps
    | _ => simp [debugStep, hworker] at hy
  | run =>
    cases hworker : x.worker with
    | resuming pid todo =>
      cases todo with
      | nil =>
        simp only [debugStep, hworker, Option.some.injEq] at hy
        subst hy
        exact .ran pid _ _ hworker (resumeRun_keepsText x.kernel pid) (Worker.after_cases _ _)
      | cons tid todo => simp [debugStep, hworker] at hy
    | _ => simp [debugStep, hworker] at hy
  | poll =>
    cases hworker : x.worker with
    | idle =>
      simp only [debugStep, hworker, Option.some.injEq] at hy
      subst hy
      refine .polledIdle _ hworker ?_
      split
      · exact .inr rfl
      · exact .inl rfl
    | polling =>
      simp only [debugStep, hworker, Option.some.injEq] at hy
      subst hy
      exact .polled hworker
    | _ => simp [debugStep, hworker] at hy
  | interrupt =>
    cases hworker : x.worker with
    | polling =>
      obtain ⟨hkeeps, hstays⟩ := interruptTarget_keepsText x.kernel x.session.getPid
      simp only [debugStep, hworker, Option.some.injEq] at hy
      subst hy
      refine .interrupted _ _ hworker hkeeps hstays ?_
      cases (interruptTarget x.kernel x.session.getPid).1 with
      | ok _ => exact .inl rfl
      | err _ => exact .inr rfl
      | panic => exact .inr rfl
    | _ => simp [debugStep, hworker] at hy
  | execute regs tids =>
    cases hrunning : x.suspended with
    | true => simp [debugStep, hrunning] at hy
    | false =>
      simp only [debugStep, hrunning, Bool.false_eq_true, if_false, Option.some.injEq] at hy
      subst hy
      exact .executed regs tids _ hrunning ⟨rfl, rfl, rfl⟩
  | fault vector tid context =>
    cases hrunning : x.suspended with
    | true => simp [debugStep, hrunning] at hy
    | false =>
      simp only [debugStep, hrunning, Bool.false_eq_true, if_false, Option.some.injEq] at hy
      subst hy
      exact .faulted vector tid context hrunning
  | halt n =>
    simp only [debugStep] at hy
    split at hy
    · next tid vector context hn =>
      split at hy
      · rw [← Option.some.inj hy]
        exact .notHandled n
      · next halted _ =>
        rw [← Option.some.inj hy]
        exact .halted n tid halted
    · exact absurd hy (by simp)
  | queue n =>
    simp only [debugStep] at hy
    split at hy
    · next tid halted hn =>
      rcases queue_cases x.session x.kernel tid halted with
        ⟨stepTid, addr, insn, thumb, hstep, rfl, heq⟩ | ⟨hnot, heq⟩
      · rw [heq] at hy
        rw [← Option.some.inj hy]
        exact .completed n tid stepTid addr insn thumb hn hstep
      · rcases hqueue : x.session.queue x.kernel tid halted with ⟨res, s, k⟩
        rw [hqueue] at hy heq
        obtain ⟨rfl, rfl⟩ := Prod.ext_iff.mp heq
        rw [← Option.some.inj hy]
        exact .queued n tid halted hn hnot
    · exact absurd hy (by simp)
  | exit =>
    rw [← Option.some.inj hy]
    exact .exited

/-! ## Breakpoints and the recorded step -/

/-- The breakpoints, the recorded step, the text and what gdb has added are as they were, and so
    is the step result, unless it was taken. -/
structure Undisturbed (x y : DebugState) : Prop where
  pid : y.session.pid = x.session.pid
  swBreakpoints : y.session.swBreakpoints = x.session.swBreakpoints
  step : y.session.step = x.session.step
  stepResult : y.session.stepResult = x.session.stepResult ∨ y.session.stepResult = none
  kernel : x.kernel.KeepsText y.kernel
  added : y.added = x.added

/-- The part of a step that breakpoints and the recorded step see. -/
inductive BreakpointEffect (decoder : InstDecoder) (x : DebugState) :
    DebugEvent → DebugState → Prop where
  | undisturbed (e : DebugEvent) (y : DebugState) (hsame : Undisturbed x y) :
    BreakpointEffect decoder x e y
  | added (addr : U32) (kind : ArmBreakpointKind) :
    BreakpointEffect decoder x (.addSwBreakpoint addr kind) { x with
      session := (x.session.setSwBreakpoint x.kernel addr kind).2.1
      kernel := (x.session.setSwBreakpoint x.kernel addr kind).2.2
      added := if (x.session.setSwBreakpoint x.kernel addr kind).1 then insert addr x.added
        else x.added }
  | removed (addr : U32) :
    BreakpointEffect decoder x (.removeSwBreakpoint addr) { x with
      session := (x.session.clearSwBreakpoint x.kernel addr).2.1
      kernel := (x.session.clearSwBreakpoint x.kernel addr).2.2
      added := x.added.erase addr }
  | planted (pid tid : SceUID) (todo : List SceUID) (addr : U32) (thumb : Bool) (k₁ : Kernel)
      (y : DebugState) (hworker : x.worker = .resuming pid (tid :: todo))
      (hstep : x.target.stepAction = some tid)
      (hpredict : predict decoder (userEntry (x.kernel.cpuRegs tid)) (x.kernel.mem pid) =
        .ok (addr, thumb))
      (hkeeps₁ : x.kernel.Keeps k₁)
      (hsession :
        y.session = (x.session.setSwBreakpoint k₁ addr (stepKind thumb)).2.1.setStep tid addr)
      (hkernel : (x.session.setSwBreakpoint k₁ addr (stepKind thumb)).2.2.Keeps y.kernel)
      (hadded : y.added = x.added) :
    BreakpointEffect decoder x .thread y
  | completed (n : Nat) (tid stepTid : SceUID) (addr : U32) (insn : List U8) (thumb : Bool)
      (y : DebugState) (hn : x.handlers[n]? = some ⟨tid, .halted (.brk addr insn thumb)⟩)
      (hstep : x.session.step = some (stepTid, addr))
      (hsession : y.session = (x.session.stepFinished x.kernel).2.1)
      (hkernel : y.kernel = (x.session.stepFinished x.kernel).2.2) (hadded : y.added = x.added) :
    BreakpointEffect decoder x (.queue n) y

theorem hwCall_frame (s : GdbSessionInner) (k : Kernel) (call : HwCall) :
    s.HwOnly (hwCall s k call).1 ∧ k.Keeps (hwCall s k call).2 := by
  cases call with
  | addHwBreakpoint addr => exact setHwBreakpoint_frame s k addr
  | removeHwBreakpoint addr => exact clearHwBreakpoint_frame s k addr
  | addHwWatchpoint addr len kind => exact setHwWatchpoint_frame s k addr len kind
  | removeHwWatchpoint addr => exact clearHwWatchpoint_frame s k addr

theorem pushExited_frame (s : GdbSessionInner) (k : Kernel) :
    (∃ b, (s.pushExited k).1 = { s with exited := b }) ∧ k.Keeps (s.pushExited k).2 := by
  rw [pushExited]
  split
  · exact ⟨⟨s.exited, rfl⟩, Kernel.Keeps.refl k⟩
  · next evflag _ => exact ⟨⟨true, rfl⟩, evflag.set_keeps k evWakeWorker⟩

/-- The session is as it was. -/
theorem Undisturbed.of_kernel {x y : DebugState} (hsession : y.session = x.session)
    (hkernel : x.kernel.KeepsText y.kernel) (hadded : y.added = x.added) : Undisturbed x y :=
  ⟨by rw [hsession], by rw [hsession], by rw [hsession], .inl (by rw [hsession]), hkernel, hadded⟩

/-- **Four events touch the breakpoints or the recorded step**: gdb's two requests, the planting
    of a step, and its completion. -/
theorem debugStep_breakpoints {decoder : InstDecoder} {x y : DebugState} {e : DebugEvent}
    (hy : debugStep decoder x e = some y) : BreakpointEffect decoder x e y := by
  have hrefl : x.kernel.KeepsText x.kernel := (Kernel.Keeps.refl x.kernel).keepsText
  cases debugStep_effect hy with
  | added addr kind _ => exact .added addr kind
  | removed addr _ => exact .removed addr
  | hardware call _ =>
    obtain ⟨⟨bps, wps, hs⟩, hk⟩ := hwCall_frame x.session x.kernel call
    refine .undisturbed _ _ ⟨?_, ?_, ?_, .inl ?_, hk.keepsText, rfl⟩ <;> dsimp only <;> rw [hs]
  | acted => exact .undisturbed _ _ (.of_kernel rfl hrefl rfl)
  | notResumed k w _ hkeeps _ => exact .undisturbed _ _ (.of_kernel rfl hkeeps.keepsText rfl)
  | resumed k pid tids _ _ hkeeps => exact .undisturbed _ _ (.of_kernel rfl hkeeps.keepsText rfl)
  | passed pid tid todo t k w _ hkeeps _ =>
    exact .undisturbed _ _ (.of_kernel rfl hkeeps.keepsText rfl)
  | planted pid tid todo addr thumb t k₁ k hworker hstep hpredict hkeeps₁ hkeeps =>
    exact .planted pid tid todo addr thumb k₁ _ hworker hstep hpredict hkeeps₁ rfl hkeeps rfl
  | ran pid k w _ hkeeps _ => exact .undisturbed _ _ (.of_kernel rfl hkeeps rfl)
  | polledIdle => exact .undisturbed _ _ ⟨rfl, rfl, rfl, .inl rfl, hrefl, rfl⟩
  | polled _ =>
    obtain ⟨r, q, hs, hr, -⟩ := popStop_frame x.session
    refine .undisturbed _ _ ⟨?_, ?_, ?_, ?_, hrefl, rfl⟩ <;> dsimp only <;> rw [hs]
    exact hr
  | interrupted k w _ hkeeps _ _ => exact .undisturbed _ _ (.of_kernel rfl hkeeps rfl)
  | executed regs tids k _ hkeeps => exact .undisturbed _ _ (.of_kernel rfl hkeeps.keepsText rfl)
  | faulted => exact .undisturbed _ _ (.of_kernel rfl hrefl rfl)
  | notHandled => exact .undisturbed _ _ (.of_kernel rfl hrefl rfl)
  | halted n tid halted =>
    exact .undisturbed _ _ (.of_kernel rfl (x.kernel.haltForDebug_keepsText x.session.pid tid) rfl)
  | completed n tid stepTid addr insn thumb hn hstep =>
    exact .completed n tid stepTid addr insn thumb _ hn hstep rfl rfl rfl
  | queued n tid halted _ _ =>
    obtain ⟨⟨r, hs⟩, hk⟩ := pushExcp_frame x.session x.kernel (queuedEvent tid halted)
    refine .undisturbed _ _ ⟨?_, ?_, ?_, .inl ?_, hk.keepsText, rfl⟩ <;> dsimp only <;> rw [hs]
  | exited =>
    obtain ⟨⟨b, hs⟩, hk⟩ := pushExited_frame x.session x.kernel
    refine .undisturbed _ _ ⟨?_, ?_, ?_, .inl ?_, hk.keepsText, rfl⟩ <;> dsimp only <;> rw [hs]

/-! ## What is about to happen to a step -/

namespace DebugState

/-- Where the next turn of `resume` is about to plant, if it is about to. -/
def planting (decoder : InstDecoder) (x : DebugState) : Option (U32 × Bool) :=
  match x.worker with
  | .resuming pid (tid :: _) =>
    if x.target.stepAction = some tid then
      match predict decoder (userEntry (x.kernel.cpuRegs tid)) (x.kernel.mem pid) with
      | .ok target => some target
      | _ => none
    else none
  | _ => none

/-- The step a halted handler is about to complete: the thread that raised the exception, and the
    recorded thread and address. -/
def completing (x : DebugState) (n : Nat) : Option (SceUID × SceUID × U32) :=
  match x.handlers[n]? with
  | some ⟨tid, .halted halted⟩ =>
    if x.session.completes halted then x.session.step.map (tid, ·) else none
  | _ => none

theorem planting_eq {decoder : InstDecoder} {x : DebugState} {pid tid : SceUID}
    {todo : List SceUID} {addr : U32} {thumb : Bool}
    (hworker : x.worker = .resuming pid (tid :: todo))
    (hstep : x.target.stepAction = some tid)
    (hpredict : predict decoder (userEntry (x.kernel.cpuRegs tid)) (x.kernel.mem pid) =
      .ok (addr, thumb)) : x.planting decoder = some (addr, thumb) := by
  simp only [planting, hworker, hstep, if_true, hpredict]

theorem completing_eq {x : DebugState} {n : Nat} {tid stepTid : SceUID} {addr : U32}
    {insn : List U8} {thumb : Bool}
    (hn : x.handlers[n]? = some ⟨tid, .halted (.brk addr insn thumb)⟩)
    (hstep : x.session.step = some (stepTid, addr)) :
    x.completing n = some (tid, stepTid, addr) := by
  have hcompletes : x.session.completes (.brk addr insn thumb) = true := isStep_iff.mpr ⟨_, hstep⟩
  simp only [completing, hn, hcompletes, if_true, hstep, Option.map_some]

end DebugState

/-! ## A process of two threads -/

/-- Process 7, suspended, with the threads 9 and 10 in ARM code at 0x1000 and 0x2000. -/
def twoThreads : Kernel :=
  { Kernel.quiet (fun _ a => some (a.setWidth 8)) with
    status := fun _ => Kernel.processHaltStatus
    threadIds := fun _ => [9#32, 10#32]
    cpuRegs := fun tid =>
      let regs : SceArmCpuRegisters :=
        { (default : SceArmCpuRegisters) with
          pc := if tid = 9#32 then 0x1000#32 else 0x2000#32
          cpsr := 0x10#32 }
      (regs, regs) }

theorem twoThreads_noFail : twoThreads.NoFail := fun _ => rfl

/-- The process attached. -/
def twoThreadsAttached : DebugState :=
  attachedState (VitaTarget.new ⟨3#32⟩) 7#32 ⟨3#32⟩ twoThreads

/-- A decoder to which no instruction is a jump. -/
def straightLine : InstDecoder := fun _ _ => .ok ⟨.AL, .other, fun _ => .nothing, false, true⟩

/-- A debug prefetch abort in ARM state. -/
def armAbort (addr : U32) : SceExcpmgrExceptionContext where
  addressOfFaultingInstruction := addr
  SPSR := 0x10#32
  CPACR := 0#32
  IFSR := 0x2#32
  IFAR := addr
  DFSR := 0#32
  DFAR := 0#32

/-- A `vCont` that steps the thread, and the whole of `resume`. -/
def stepThread (tid : SceUID) : List DebugEvent :=
  [.action .clear, .action (.step tid), .resume, .thread, .thread, .run]

/-- An exception of a thread, handled without an interruption. -/
def raise (vector : ExcpVector) (tid : SceUID) (addr : U32) : List DebugEvent :=
  [.fault vector tid (armAbort addr), .halt 0, .queue 0]

end VitaGdb
