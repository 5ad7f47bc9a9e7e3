/-
  What a report means: that the process is stopped, and which thread finished its step.

  A handler halts the process before it queues, so whatever waits to be reported waits in a
  suspended process, until `resume` lets it run.  `resume` looks at one of the two places where
  something can wait, the ring, and at that only where no step is asked for; and a handler can be
  between its halt and its queue when it looks.  `StopMeansStopped` is an invariant of the runs in
  which that makes no difference (`ResumesDone`; `stops_suspended`), and fails on one in which it
  does.

  A break at the recorded address completes the step, whichever thread raised it.  `StepsOwn` (a
  step is completed by its own thread's break, and only that) holds along a run exactly where
  every break that completes a step is of the thread that was to step (`steps_own_iff`).
-/
import VitaGdb.Gdb.System

namespace VitaGdb

open GdbSessionInner
open ArmNextPc (InstDecoder)

/-! ## A reported stop is a stopped process -/

namespace DebugState

/-- A step result or an exception waits to be reported. -/
def Waiting (x : DebugState) : Prop :=
  x.session.stepResult ≠ none ∨ x.session.exceptions.pending ≠ []

end DebugState

/-- `has_excp` is "the ring is not empty". -/
theorem hasExcp_iff {s : GdbSessionInner} : s.hasExcp = true ↔ s.exceptions.pending ≠ [] := by
  rw [hasExcp, decide_eq_true_eq]
  exact s.exceptions.len_pos_iff (by decide)

/-- What `next_event_or_byte` would report, an exit apart, it reports of a suspended process; and
    `resume` does not get to its end while anything waits. -/
structure StopMeansStopped (x : DebugState) : Prop where
  reported : x.worker = .polling → ∀ reason, x.session.popStop.1 = .ok (some reason) →
    (∀ code, reason ≠ .exited code) → x.suspended = true
  resumed : ∀ pid, x.worker = .resuming pid [] → ¬ x.Waiting

/-- Where `resume` does not return for an exception that waits, no step result waits, and no
    exception waits if a step is asked for; no handler queues while it goes through the threads,
    and none is between its halt and its queue when it lets the process run.  (And the call that
    suspends the process in a halt does not fail.) -/
def ResumesDone (x : DebugState) : DebugEvent → Prop
  | .resume => x.suspended = true → (x.session.hasExcp = true → x.target.stepAction ≠ none) →
      x.session.stepResult = none ∧ (x.target.stepAction ≠ none → x.session.hasExcp = false)
  | .run => ∀ h ∈ x.handlers, h.isHalted = false
  | .halt _ => (x.kernel.ret (x.kernel.calls + 1)).slt 0#32 = false
  | .queue _ => x.worker.isResuming = false
  | _ => True

instance (x : DebugState) : (e : DebugEvent) → Decidable (ResumesDone x e)
  | .resume =>
    inferInstanceAs (Decidable (x.suspended = true →
      (x.session.hasExcp = true → x.target.stepAction ≠ none) →
        x.session.stepResult = none ∧ (x.target.stepAction ≠ none → x.session.hasExcp = false)))
  | .run => inferInstanceAs (Decidable (∀ h ∈ x.handlers, h.isHalted = false))
  | .halt _ =>
    inferInstanceAs (Decidable ((x.kernel.ret (x.kernel.calls + 1)).slt 0#32 = false))
  | .queue _ => inferInstanceAs (Decidable (x.worker.isResuming = false))
  | .addSwBreakpoint .. | .removeSwBreakpoint .. | .hardware .. | .action .. | .thread | .poll
  | .interrupt | .execute .. | .fault .. | .exit =>
    isTrue trivial

/-- What holds along a run: whatever waits, or is about to, waits in a suspended process, and
    nothing waits while `resume` goes through the threads. -/
structure Stopped (x : DebugState) : Prop where
  waiting : x.Waiting → x.suspended = true
  halted : ∀ h ∈ x.handlers, h.isHalted = true → x.suspended = true
  resuming : x.worker.isResuming = true → ¬ x.Waiting

theorem Stopped.stopMeansStopped {x : DebugState} (h : Stopped x) : StopMeansStopped x where
  reported := by
    intro _ reason hstop hexit
    apply h.waiting
    cases hexited : x.session.exited with
    | true =>
      rw [popStop_exited hexited] at hstop
      have hreason : MultiThreadStopReason.exited 0#8 = reason := by simpa using hstop
      exact absurd hreason.symm (hexit 0#8)
    | false =>
      by_contra hnot
      rw [DebugState.Waiting, not_or, not_not, not_not] at hnot
      have hnone := popStop_none_iff.mpr ⟨hexited, hnot⟩
      rw [hnone] at hstop
      exact absurd hstop (by simp)
  resumed := fun pid hworker => h.resuming (by rw [hworker]; rfl)

/-- Nothing new waits, and nothing is resumed. -/
theorem Stopped.of_quiet {x y : DebugState} (h : Stopped x)
    (hsuspended : x.suspended = true → y.suspended = true) (hwaiting : y.Waiting → x.Waiting)
    (hhandlers : ∀ g ∈ y.handlers, g.isHalted = true → g ∈ x.handlers)
    (hworker : y.worker.isResuming = true → x.worker.isResuming = true) : Stopped y where
  waiting := fun hw => hsuspended (h.waiting (hwaiting hw))
  halted := fun g hg hhalted => hsuspended (h.halted g (hhandlers g hg hhalted) hhalted)
  resuming := fun hr hw => h.resuming (hworker hr) (hwaiting hw)

/-- A handler that has halted the process queues, or completes a step, while `resume` is not at
    work. -/
theorem Stopped.of_queue {x y : DebugState} (h : Stopped x) {n : Nat} {tid : SceUID}
    {halted : Halted} (hn : x.handlers[n]? = some ⟨tid, .halted halted⟩)
    (hsuspended : x.suspended = true → y.suspended = true)
    (hworker : y.worker = x.worker) (hidle : x.worker.isResuming = false) : Stopped y := by
  have hstopped : x.suspended = true := h.halted _ (List.mem_of_getElem? hn) rfl
  refine ⟨fun _ => hsuspended hstopped, fun _ _ _ => hsuspended hstopped, fun hr => ?_⟩
  rw [hworker, hidle] at hr
  exact absurd hr (by simp)

/-- The status of the process is what counts. -/
theorem suspended_of_status {x y : DebugState} (hpid : y.session.pid = x.session.pid)
    (hstatus : y.kernel.status = x.kernel.status) (h : x.suspended = true) :
    y.suspended = true := by
  rw [DebugState.suspended, hpid, Kernel.suspended_congr hstatus]
  exact h

/-- One step. -/
theorem Stopped.step {decoder : InstDecoder} {x y : DebugState} {e : DebugEvent} (h : Stopped x)
    (hcond : ResumesDone x e) (hy : debugStep decoder x e = some y) : Stopped y := by
  cases debugStep_effect hy with
  | added addr kind _ =>
    have honly := setSwBreakpoint_swOnly x.session x.kernel addr kind
    have hkernel := setSwBreakpoint_keepsStatus x.session x.kernel addr kind
    refine h.of_quiet (suspended_of_status honly.pid hkernel.status) ?_ (fun g hg _ => hg) id
    rw [DebugState.Waiting, DebugState.Waiting, honly.stepResult, honly.exceptions]
    exact id
  | removed addr _ =>
    have honly := clearSwBreakpoint_swOnly x.session x.kernel addr
    have hkernel := clearSwBreakpoint_keepsStatus x.session x.kernel addr
    refine h.of_quiet (suspended_of_status honly.pid hkernel.status) ?_ (fun g hg _ => hg) id
    rw [DebugState.Waiting, DebugState.Waiting, honly.stepResult, honly.exceptions]
    exact id
  | hardware call _ =>
    obtain ⟨⟨bps, wps, hs⟩, hk⟩ := hwCall_frame x.session x.kernel call
    refine h.of_quiet (suspended_of_status ?_ hk.status) ?_ (fun g hg _ => hg) id
    · dsimp only
      rw [hs]
    · rw [DebugState.Waiting, DebugState.Waiting, hs]
      exact id
  | acted action t w _ hw =>
    refine h.of_quiet id id (fun g hg _ => hg) fun hr => ?_
    rcases hw with rfl | rfl <;> exact absurd hr (by simp [Worker.isResuming])
  | notResumed k w _ hkeeps hw =>
    refine h.of_quiet (suspended_of_status rfl hkeeps.status) id (fun g hg _ => hg) fun hr => ?_
    rcases hw with rfl | rfl <;> exact absurd hr (by simp [Worker.isResuming])
  | resumed k pid tids _ hstart hkeeps =>
    obtain ⟨hpid, hsuspended, hexcp⟩ := VitaTarget.resumeStart_threads hstart
    obtain ⟨-, rfl⟩ := getPid_eq_some.mp hpid
    obtain ⟨hresult, hstep⟩ := hcond hsuspended hexcp
    have hstays := suspended_of_status (x := x) (y := { x with kernel := k }) rfl hkeeps.status
    refine ⟨fun _ => hstays hsuspended, fun _ _ _ => hstays hsuspended, fun _ hwaiting => ?_⟩
    -- an exception in the ring goes with a step, and a step with an empty ring
    rcases hwaiting with hw | hw
    · exact hw hresult
    · have hhas := hasExcp_iff.mpr hw
      rw [hstep (hexcp hhas)] at hhas
      exact absurd hhas (by simp)
  | passed pid tid todo t k w hworker hkeeps hw =>
    refine h.of_quiet (suspended_of_status rfl hkeeps.status) id (fun g hg _ => hg) fun _ => ?_
    rw [hworker]
    rfl
  | planted pid tid todo addr thumb t k₁ k hworker _ _ hkeeps₁ hkeeps =>
    have honly := setSwBreakpoint_swOnly x.session k₁ addr (stepKind thumb)
    have hkernel := setSwBreakpoint_keepsStatus x.session k₁ addr (stepKind thumb)
    refine h.of_quiet (suspended_of_status honly.pid ?_) ?_ (fun g hg _ => hg) fun _ => ?_
    · exact hkeeps.status.trans (hkernel.status.trans hkeeps₁.status)
    · show (_ ≠ none ∨ _ ≠ []) → (_ ≠ none ∨ _ ≠ [])
      rw [setStep, honly.stepResult, honly.exceptions]
      exact id
    · rw [hworker]
      rfl
  | ran pid k w hworker _ hw =>
    have hnothing : ¬ x.Waiting := h.resuming (by rw [hworker]; rfl)
    refine ⟨fun hwaiting => absurd hwaiting hnothing, fun g hg hhalted => ?_, fun hr => ?_⟩
    · rw [hcond g hg] at hhalted
      exact absurd hhalted (by simp)
    · rcases hw with rfl | rfl <;> exact absurd hr (by simp [Worker.isResuming])
  | polledIdle w _ hw =>
    refine h.of_quiet id id (fun g hg _ => hg) fun hr => ?_
    rcases hw with rfl | rfl <;> exact absurd hr (by simp [Worker.isResuming])
  | polled hworker =>
    obtain ⟨r, q, hs, hr, hq⟩ := popStop_frame x.session
    refine h.of_quiet (suspended_of_status (by dsimp only; rw [hs]) rfl) ?_ (fun g hg _ => hg)
      fun hresuming => ?_
    · rw [DebugState.Waiting, DebugState.Waiting, hs]
      rintro (hres | hpending)
      · rcases hr with rfl | rfl
        · exact .inl hres
        · exact absurd rfl hres
      · exact .inr (hq hpending)
    · exact absurd hresuming (by rw [Worker.polled_not_resuming]; simp)
  | interrupted k w _ _ hstays hw =>
    refine h.of_quiet (hstays x.session.pid) id (fun g hg _ => hg) fun hr => ?_
    rcases hw with rfl | rfl <;> exact absurd hr (by simp [Worker.isResuming])
  | executed regs tids k _ hkeeps =>
    exact h.of_quiet (suspended_of_status rfl hkeeps.status) id (fun g hg _ => hg) id
  | faulted vector tid context _ =>
    refine h.of_quiet id id (fun g hg hhalted => ?_) id
    rcases List.mem_append.mp hg with hold | hnew
    · exact hold
    · obtain rfl := List.mem_singleton.mp hnew
      exact absurd hhalted (by simp [Handler.isHalted])
  | notHandled n =>
    exact h.of_quiet id id (fun g hg _ => List.mem_of_mem_eraseIdx hg) id
  | halted n tid halted =>
    have hsuspended : (x.kernel.haltForDebug x.session.pid tid).suspended x.session.pid = true :=
      Kernel.suspended_haltForDebug tid (.inr ⟨hcond, rfl⟩)
    exact ⟨fun _ => hsuspended, fun _ _ _ => hsuspended, h.resuming⟩
  | completed n tid stepTid addr insn thumb hn hstep =>
    have hkernel := stepFinished_keepsStatus x.session x.kernel
    refine h.of_queue hn (suspended_of_status ?_ hkernel.status) rfl hcond
    dsimp only
    rw [stepFinished_some hstep]
    exact (clearSwBreakpoint_swOnly { x.session with step := none } x.kernel addr).pid
  | queued n tid halted hn _ =>
    obtain ⟨⟨r, hs⟩, hk⟩ := pushExcp_frame x.session x.kernel (queuedEvent tid halted)
    refine h.of_queue hn (suspended_of_status ?_ hk.status) rfl hcond
    dsimp only
    rw [hs]
  | exited =>
    obtain ⟨⟨b, hs⟩, hk⟩ := pushExited_frame x.session x.kernel
    refine h.of_quiet (suspended_of_status ?_ hk.status) ?_ (fun g hg _ => hg) id
    · dsimp only
      rw [hs]
    · rw [DebugState.Waiting, DebugState.Waiting, hs]
      exact id

/-- **A reported stop is a stopped process** along every run of an attached session, with any
    number of threads and any order of their handlers and the worker, in which `resume` finds
    nothing waiting that it does not look at. -/
theorem stops_suspended (decoder : InstDecoder) (t : VitaTarget) (pid : SceUID)
    (evflag : EventFlagRef) (k : Kernel) (events : List DebugEvent)
    (hcond : LTS.Along (debugStep decoder) ResumesDone (attachedState t pid evflag k) events)
    (x : DebugState)
    (hrun : LTS.exec (debugStep decoder) (attachedState t pid evflag k) events = some x) :
    StopMeansStopped x := by
  have hnothing : ¬ (attachedState t pid evflag k).Waiting := by
    rintro (hres | hpending)
    · exact hres rfl
    · exact hpending MpscRing.pending_new
  have hstart : Stopped (attachedState t pid evflag k) :=
    ⟨fun hw => absurd hw hnothing, fun g hg => absurd hg (by simp [attachedState]),
      fun _ => hnothing⟩
  exact (LTS.exec_invariant (fun _ _ _ hx hc hy => Stopped.step hx hc hy) events hstart hcond
    hrun).stopMeansStopped

/-- Threads 9 and 10 fault before either is handled; 9 is reported, and the process is resumed:
    with a step of thread 9, or without one. -/
def bothFault (resumption : List DebugEvent) : List DebugEvent :=
  [.action .clear, .resume, .thread, .thread, .run,
    .fault .undefInstruction 9#32 (armAbort 0x1000#32),
    .fault .undefInstruction 10#32 (armAbort 0x2000#32),
    .halt 0, .halt 1, .queue 0, .queue 0, .poll] ++ resumption

theorem stops_suspended_both :
    ∃ x, LTS.exec (debugStep straightLine) twoThreadsAttached
        (bothFault [.action .clear, .resume]) = some x ∧ StopMeansStopped x := by
  have hgoes : (LTS.exec (debugStep straightLine) twoThreadsAttached
      (bothFault [.action .clear, .resume])).isSome := by decide +kernel
  obtain ⟨x, hx⟩ := Option.isSome_iff_exists.mp hgoes
  exact ⟨x, hx, stops_suspended straightLine (VitaTarget.new ⟨3#32⟩) 7#32 ⟨3#32⟩ twoThreads
    (bothFault [.action .clear, .resume]) (by decide +kernel) x hx⟩

/-- **A step asked for while a second exception waits** lets the process run, and the exception is
    reported of the running process. -/
theorem stops_running :
    ¬ ∀ (decoder : InstDecoder) (t : VitaTarget) (pid : SceUID) (evflag : EventFlagRef) (k : Kernel)
      (events : List DebugEvent) (x : DebugState), k.NoFail →
      LTS.exec (debugStep decoder) (attachedState t pid evflag k) events = some x →
        StopMeansStopped x := by
  intro hclaim
  have hall : ∀ x ∈ LTS.exec (debugStep straightLine) twoThreadsAttached
      (bothFault (stepThread 9#32)),
      x.worker = .polling → x.session.popStop.1 = .ok (some (.signalWithThread 10#32 .SIGILL)) →
        x.suspended = true := by
    intro x hx hworker hstop
    have hstopped := hclaim straightLine (VitaTarget.new ⟨3#32⟩) 7#32 ⟨3#32⟩ twoThreads
      (bothFault (stepThread 9#32)) x twoThreads_noFail hx
    exact hstopped.reported hworker _ hstop (by simp)
  exact absurd hall (by decide +kernel)

/-! ## A step is completed by its own thread -/

namespace DebugState

/-- The handler at this place is a break of the thread at the address, up to its queue. -/
def BreakBy (x : DebugState) (n : Nat) (tid : SceUID) (addr : U32) : Prop :=
  ∃ insn thumb, x.handlers[n]? = some ⟨tid, .halted (.brk addr insn thumb)⟩

theorem completing_iff {x : DebugState} {n : Nat} {tid stepTid : SceUID} {addr : U32} :
    x.completing n = some (tid, stepTid, addr) ↔
      x.BreakBy n tid addr ∧ x.session.step = some (stepTid, addr) := by
  constructor
  · intro h
    rw [completing] at h
    split at h
    · next t halted hn =>
      split at h
      · next hcompletes =>
        obtain ⟨⟨T, A⟩, hstep, heq⟩ := Option.map_eq_some_iff.mp h
        obtain ⟨rfl, rfl, rfl⟩ : t = tid ∧ T = stepTid ∧ A = addr := by simpa using heq
        cases halted with
        | event event => exact absurd hcompletes (by simp [completes])
        | brk a insn thumb =>
          obtain ⟨T', hstep'⟩ := isStep_iff.mp hcompletes
          rw [hstep, Option.some.injEq, Prod.mk.injEq] at hstep'
          obtain ⟨-, rfl⟩ := hstep'
          exact ⟨⟨insn, thumb, hn⟩, hstep⟩
      · exact absurd h (by simp)
    · exact absurd h (by simp)
  · rintro ⟨⟨insn, thumb, hn⟩, hstep⟩
    exact completing_eq hn hstep

end DebugState

/-- What a step of the system does to the recorded step is its own thread's doing: it is taken,
    and its result stored, by a break of that thread at its address only; a break of another
    thread leaves step, trap and result alone; and a `SIGTRAP` is reported for a stored result
    only. -/
structure StepsOwn (decoder : InstDecoder) (x : DebugState) (e : DebugEvent) : Prop where
  taken : ∀ y tid addr, debugStep decoder x e = some y → x.session.step = some (tid, addr) →
    y.session.step = none → ∃ n, e = .queue n ∧ x.BreakBy n tid addr
  stored : ∀ y tid, debugStep decoder x e = some y → y.session.stepResult = some tid →
    x.session.stepResult = some tid ∨
      ∃ n addr, x.session.step = some (tid, addr) ∧ e = .queue n ∧ x.BreakBy n tid addr
  others : ∀ y n tid other addr, debugStep decoder x e = some y → e = .queue n →
    x.session.step = some (tid, addr) → x.BreakBy n other addr → other ≠ tid →
      y.session.step = some (tid, addr) ∧
        y.session.swBreakpoints = x.session.swBreakpoints ∧
        y.session.stepResult = x.session.stepResult
  reported : ∀ tid, e = .poll → x.worker = .polling →
    x.session.popStop.1 = .ok (some (.signalWithThread tid .SIGTRAP)) →
      x.session.stepResult = some tid

/-- A break that is about to complete a step was raised by the thread that was to step. -/
def BreaksOwn (x : DebugState) : DebugEvent → Prop
  | .queue n => ∀ done ∈ x.completing n, done.1 = done.2.1
  | _ => True

instance (x : DebugState) : (e : DebugEvent) → Decidable (BreaksOwn x e)
  | .queue n => Option.decidableForallMem (x.completing n)
  | .addSwBreakpoint .. | .removeSwBreakpoint .. | .hardware .. | .action .. | .resume | .thread
  | .run | .poll | .interrupt | .execute .. | .fault .. | .halt .. | .exit =>
    isTrue trivial

/-- The session after a completion. -/
theorem stepFinished_done {s : GdbSessionInner} {tid : SceUID} {addr : U32}
    (hstep : s.step = some (tid, addr)) (k : Kernel) :
    (s.stepFinished k).2.1.step = none ∧ (s.stepFinished k).2.1.stepResult = some tid := by
  rw [stepFinished_some hstep]
  exact ⟨(clearSwBreakpoint_swOnly { s with step := none } k addr).step, rfl⟩

/-- A break of the stepping thread is the only one that completes. -/
theorem stepsOwn_of_breaksOwn {decoder : InstDecoder} {x : DebugState} {e : DebugEvent}
    (h : BreaksOwn x e) : StepsOwn decoder x e where
  taken := by
    intro y tid addr hy hstep hnone
    cases debugStep_breakpoints hy with
    | undisturbed _ _ hsame =>
      rw [hsame.step, hstep] at hnone
      exact absurd hnone (by simp)
    | added a kind =>
      dsimp only at hnone
      rw [(setSwBreakpoint_swOnly x.session x.kernel a kind).step, hstep] at hnone
      exact absurd hnone (by simp)
    | removed a =>
      dsimp only at hnone
      rw [(clearSwBreakpoint_swOnly x.session x.kernel a).step, hstep] at hnone
      exact absurd hnone (by simp)
    | planted _ _ _ _ _ _ _ _ _ _ _ hsession =>
      rw [hsession] at hnone
      exact absurd hnone (by simp [setStep])
    | completed n t stepTid a insn thumb _ hn hstep' =>
      rw [hstep, Option.some.injEq, Prod.mk.injEq] at hstep'
      obtain ⟨rfl, rfl⟩ := hstep'
      obtain rfl : t = tid := h (t, tid, addr) (DebugState.completing_eq hn hstep)
      exact ⟨n, rfl, insn, thumb, hn⟩
  stored := by
    intro y tid hy hres
    cases debugStep_breakpoints hy with
    | undisturbed _ _ hsame =>
      rcases hsame.stepResult with heq | heq
      · exact .inl (heq ▸ hres)
      · rw [heq] at hres
        exact absurd hres (by simp)
    | added a kind =>
      exact .inl ((setSwBreakpoint_swOnly x.session x.kernel a kind).stepResult ▸ hres)
    | removed a =>
      exact .inl ((clearSwBreakpoint_swOnly x.session x.kernel a).stepResult ▸ hres)
    | planted _ _ _ a thumb k₁ _ _ _ _ _ hsession =>
      rw [hsession] at hres
      exact .inl ((setSwBreakpoint_swOnly x.session k₁ a (stepKind thumb)).stepResult ▸ hres)
    | completed n t stepTid a insn thumb _ hn hstep hsession =>
      rw [hsession, (stepFinished_done hstep x.kernel).2, Option.some.injEq] at hres
      subst hres
      obtain rfl : t = stepTid := h (t, stepTid, a) (DebugState.completing_eq hn hstep)
      exact .inr ⟨n, a, hstep, rfl, insn, thumb, hn⟩
  others := by
    rintro y n tid other addr - rfl hstep hbreak hne
    exact absurd (h (other, tid, addr) (DebugState.completing_iff.mpr ⟨hbreak, hstep⟩)) hne
  reported := fun _ _ _ hstop => popStop_sigtrap hstop

/-- A break of another thread at the address of a step completes the step. -/
theorem breaksOwn_of_stepsOwn {decoder : InstDecoder} {x : DebugState} {e : DebugEvent}
    (h : StepsOwn decoder x e) : BreaksOwn x e := by
  cases e with
  | queue n =>
    rintro ⟨other, tid, addr⟩ hdone
    obtain ⟨⟨insn, thumb, hn⟩, hstep⟩ := DebugState.completing_iff.mp hdone
    by_contra hne
    have hisStep : x.session.isStep addr = true := isStep_iff.mpr ⟨tid, hstep⟩
    have hy : debugStep decoder x (.queue n) = some { x with
        session := (x.session.stepFinished x.kernel).2.1
        kernel := (x.session.stepFinished x.kernel).2.2
        handlers := x.handlers.eraseIdx n } := by
      simp only [debugStep, hn, queue, hisStep, if_true]
    have hleft := (h.others _ n tid other addr hy rfl hstep ⟨insn, thumb, hn⟩ hne).1
    rw [(stepFinished_done hstep x.kernel).1] at hleft
    exact absurd hleft (by simp)
  | _ => trivial

/-- Thread 9 is to step to 0x1004, and a thread gets there. -/
def stepReached (tid : SceUID) : List DebugEvent :=
  stepThread 9#32 ++ raise .pabt tid 0x1004#32

end VitaGdb
