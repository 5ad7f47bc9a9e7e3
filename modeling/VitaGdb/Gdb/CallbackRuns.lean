/-
  A callback that is left alone does what the function it is cut from does.

  `Gdb.Threads` cuts the callbacks at their atomic steps, and keeps of a slot what threads share;
  `Gdb.Handlers` has the same functions whole, on the pool and the kernel.  `Shows` says that the
  two show the same slots and event flags.

  Spec: `callback_run` — where no kernel call fails, a callback that is entered and goes on with
  nothing in between comes to its end, and leads to what the whole function leaves, for each of its
  entries: an exception that is the debugger's, the end of a process, its start.

  Crux: a callback sets bits of one event flag, and in its last step; so its steps can be followed
  on the slot alone (`CallbackPc.Run`).
-/
import VitaGdb.Gdb.Threads

namespace VitaGdb

/-! ## The whole functions -/

/-- What an entry does once its session is found. -/
def Entry.onSession (s : GdbSessionInner) (k : Kernel) (pid tid : SceUID) :
    Entry → GdbSessionInner × Kernel
  | .exception halted => (s.queue (k.haltForDebug pid tid) tid halted).2
  | .kill => s.pushExited k
  | .create =>
    match s.evflag with
    | none => (s, k)
    | some evflag => (s, (evflag.set k evProcessStarted).2)

/-- What an entry does: nothing for a process without a session. -/
def Entry.handle (w : World) (pid tid : SceUID) (entry : Entry) : World :=
  match findSessionForPid w.pool pid with
  | none => w
  | some i =>
    let (s, k) := entry.onSession (w.pool i) w.kernel pid tid
    w.put i s k

/-- The end of a process is `handle_proc_kill`. -/
theorem Entry.handle_kill (w : World) (pid tid : SceUID) :
    Entry.kill.handle w pid tid = handleProcKill w pid := rfl

/-- Its start is `handle_proc_create`. -/
theorem Entry.handle_create (w : World) (pid tid : SceUID) :
    Entry.create.handle w pid tid = handleProcCreate w pid := by
  rw [handle, handleProcCreate]
  cases findSessionForPid w.pool pid with
  | none => rfl
  | some i =>
    have hput : ∀ k, w.put i (w.pool i) k = { w with kernel := k } := fun k => by
      rw [World.put, Function.update_eq_self]
    simp only [onSession]
    cases (w.pool i).evflag with
    | none => exact hput w.kernel
    | some evflag => exact hput _

/-- An exception that is the debugger's is the handler of its vector. -/
theorem Entry.handle_exception {w : World} {pid tid : SceUID} {context : SceExcpmgrExceptionContext}
    {i : Fin 4} {vector : ExcpVector} {halted : Halted} (hi : findSessionForPid w.pool pid = some i)
    (hhalts : vectorHalts vector (w.pool i) w.kernel pid tid context = some halted) :
    (Entry.exception halted).handle w pid tid =
      (match vector with
      | .pabt => handlePrefetchAbort w pid tid context
      | .dabt => handleDataAbort w pid tid context
      | .undefInstruction => handleUndef w pid tid).2 := by
  obtain ⟨hpabt, hdabt, hundef⟩ := handler_eq_runHandler w pid tid context hi
  have hrun : (Entry.exception halted).handle w pid tid =
      (runHandler w i pid tid (some halted)).2 := by
    rw [handle, hi]
    rfl
  cases vector with
  | pabt => rw [hpabt, hhalts, hrun]
  | dabt => rw [hdabt, hhalts, hrun]
  | undefInstruction => rw [hundef, hhalts, hrun]

variable {H C : Type} {flagOf : C → EventFlagRef}

/-! ## What the two models share -/

/-- A slot of the threads shows the session of the slot; `flagOf` has the handles of the event
    flags. -/
structure ThreadSlot.Shows (flagOf : C → EventFlagRef) (t : ThreadSlot H C) (s : GdbSessionInner) :
    Prop where
  pid : t.pid = s.pid
  evflag : t.evflag.map flagOf = s.evflag
  step : t.step = s.step
  stepResult : t.stepResult = s.stepResult
  exited : t.exited = s.exited
  exceptions : t.exceptions.cells = s.exceptions.toRingCells

/-- The threads show the pool and its event flags. -/
structure Threads.Shows (flagOf : C → EventFlagRef) (x : Threads H C) (w : World) : Prop where
  slots : ∀ i, (x.slots i).Shows flagOf (w.pool i)
  flags : ∀ c, x.flags c = w.kernel.evf (flagOf c).evfid

/-- Event flags after the bits that a callback sets, if any. -/
def setEvf (flagOf : C → EventFlagRef) (evf : SceUID → U32) : Option (C × U32) → SceUID → U32
  | none => evf
  | some (c, bits) =>
    Function.update evf (flagOf c).evfid (evf (flagOf c).evfid ||| bits)

/-- What a callback leaves: its slot shows the session, and its bits are set. -/
structure Leaves (flagOf : C → EventFlagRef) (k : Kernel) (t : ThreadSlot H C)
    (set : Option (C × U32)) (y : GdbSessionInner × Kernel) : Prop where
  slot : t.Shows flagOf y.1
  evf : y.2.evf = setEvf flagOf k.evf set

theorem EventFlagRef.set_evf {k : Kernel} (hquiet : k.NoFail) (c : C) (bits : U32) :
    ((flagOf c).set k bits).2.evf = setEvf flagOf k.evf (some (c, bits)) := by
  rw [EventFlagRef.set, Kernel.sceCall_ok hquiet]
  rfl

/-- Halting touches no event flag. -/
theorem Kernel.haltForDebug_evf (k : Kernel) (pid tid : SceUID) :
    (k.haltForDebug pid tid).evf = k.evf := by
  have hthread : (k.ksceKernelChangeThreadSuspendStatus tid 0x1002#32).2.evf = k.evf :=
    sceCall_proj Kernel.evf (fun _ _ => rfl) (fun _ => rfl)
  have hprocess : ∀ k : Kernel, (k.ksceKernelSuspendProcess pid processHaltStatus).2.evf = k.evf :=
    fun k => sceCall_proj Kernel.evf (fun _ _ => rfl) (fun _ => rfl)
  exact (hprocess _).trans hthread

/-- Nor does removing a breakpoint. -/
theorem GdbSessionInner.clearSwBreakpoint_evf (s : GdbSessionInner) (k : Kernel) (addr : U32) :
    (s.clearSwBreakpoint k addr).2.2.evf = k.evf := by
  have hwrite : ∀ pid dst buf, (k.writeUserText pid dst buf).2.evf = k.evf := fun pid dst buf =>
    Kernel.writeUserText_proj Kernel.evf (fun _ _ => rfl) (fun _ _ => rfl) (fun _ _ => rfl)
      (fun _ _ => rfl) k pid dst buf
  rw [clearSwBreakpoint]
  split
  · rfl
  · next pid _ =>
    split
    · rfl
    · next b _ =>
      rw [← hwrite pid b.addr b.saved]
      simp only [restoreSwSlot]
      split
      · next h => exact (congrArg (fun x => x.2.2.evf) h).symm
      · next h => exact (congrArg (fun x => x.2.2.evf) h).symm

/-- `step_finished` sets the bit last, where there is an event flag. -/
theorem GdbSessionInner.stepFinished_setsLast {s : GdbSessionInner} {tid : SceUID} {addr : U32}
    (hstep : s.step = some (tid, addr)) (k : Kernel) :
    ∃ k', k'.evf = k.evf ∧ k'.ret = k.ret ∧ (s.stepFinished k).2.2 =
      match s.evflag with
      | none => k'
      | some evflag => (evflag.set k' evWakeWorker).2 := by
  have hevflag := (clearSwBreakpoint_swOnly { s with step := none } k addr).evflag
  have hevf := clearSwBreakpoint_evf { s with step := none } k addr
  have hret := (clearSwBreakpoint_keepsStatus { s with step := none } k addr).ret
  rw [stepFinished, hstep]
  dsimp only
  generalize clearSwBreakpoint { s with step := none } k addr = c at *
  refine ⟨c.2.2, hevf, hret, ?_⟩
  have hsame : c.2.1.evflag = s.evflag := hevflag
  rw [← hsame]
  cases c.2.1.evflag <;> rfl

/-! ## A callback on its slot -/

/-- The steps of a callback on its slot, to its end: it may set bits in the last one. -/
inductive CallbackPc.Run [DecidableEq H] (h : H) (tid : SceUID) :
    ThreadSlot H C → CallbackPc C → ThreadSlot H C → Option (C × U32) → Prop where
  | returned (s : ThreadSlot H C) : Run h tid s .returned s none
  | panicked (s : ThreadSlot H C) : Run h tid s .panicked s none
  | step {s s' s'' : ThreadSlot H C} {pc pc' : CallbackPc C} {set : Option (C × U32)}
      (hstep : pc.step h tid s = some (s', pc', none)) (hrest : Run h tid s' pc' s'' set) :
      Run h tid s pc s'' set
  | last {s s' : ThreadSlot H C} {pc : CallbackPc C} {bits : C × U32}
      (hstep : pc.step h tid s = some (s', .returned, some bits)) : Run h tid s pc s' (some bits)

/-- It has nothing left to do. -/
def CallbackPc.isDone : CallbackPc C → Bool
  | .missed | .returned | .panicked => true
  | _ => false

section

variable [DecidableEq H] {h : H} {pid tid : SceUID} {k : Kernel} {t : ThreadSlot H C}
  {s : GdbSessionInner}

/-- A `push` that has answered is over. -/
theorem ringStep_answered {x y : RingState H ExceptionEvent 8} {l : Fifo.Label ExceptionEvent}
    (hstep : ringStep x (.produce h) = some y) (hlabel : ringLabel x (.produce h) = some l) :
    y.producers h = none ∧ ((∃ v, l = .pushed v) ∨ ∃ v, l = .refused v) := by
  cases hp : x.producers h with
  | none => simp [ringLabel, hp] at hlabel
  | some c =>
    simp only [ringStep, hp, Option.some.injEq] at hstep
    simp only [ringLabel, hp] at hlabel
    subst hstep
    split at hlabel
    · exact absurd hlabel (by simp)
    · next hnext =>
      rw [← Option.some.inj hlabel, hnext]
      exact ⟨Function.update_self _ _ _, .inl ⟨_, rfl⟩⟩
    · next hnext =>
      rw [← Option.some.inj hlabel, hnext]
      exact ⟨Function.update_self _ _ _, .inr ⟨_, rfl⟩⟩

/-- A `push` under way, run to its answer, and the bit that is set then. -/
theorem queueing_run (evflag : C) : ∀ (n : Nat) {t : ThreadSlot H C}
    {ring : RingState H ExceptionEvent 8} {l : Fifo.Label ExceptionEvent},
    RingRuns t.exceptions (List.replicate n (.produce h)) ring [l] →
    CallbackPc.Run h tid t (.queueing evflag) { t with exceptions := ring }
      (some (evflag, evWakeWorker)) := by
  intro n
  induction n with
  | zero => exact fun hruns => absurd hruns.2 (by simp [LTS.trace])
  | succ n ih =>
    intro t ring l hruns
    obtain ⟨next, hstep, hrest⟩ := LTS.exec_cons_some hruns.1
    have htrace : (ringLabel t.exceptions (.produce h)).toList ++
        LTS.trace ringStep ringLabel next (List.replicate n (.produce h)) = [l] := by
      have h := hruns.2
      rw [List.replicate_succ, LTS.trace, hstep] at h
      exact h
    cases hlabel : ringLabel t.exceptions (.produce h) with
    | none =>
      rw [hlabel] at htrace
      have hgoes : CallbackPc.step h tid t (.queueing evflag) =
          some ({ t with exceptions := next }, .queueing evflag, none) := by
        simp [CallbackPc.step, hstep, hlabel]
      exact .step hgoes (ih ⟨hrest, htrace⟩)
    | some l' =>
      obtain ⟨hover, hanswer⟩ := ringStep_answered hstep hlabel
      -- nothing of the call is left
      have hn : n = 0 := by
        cases n with
        | zero => rfl
        | succ n =>
          obtain ⟨_, hnext, -⟩ := LTS.exec_cons_some hrest
          exact absurd hnext (by simp [ringStep, hover])
      subst hn
      obtain rfl := Option.some.inj hrest
      rcases hanswer with ⟨v, rfl⟩ | ⟨v, rfl⟩
      · have hgoes : CallbackPc.step h tid t (.queueing evflag) =
            some ({ t with exceptions := next }, .setting evflag, none) := by
          simp [CallbackPc.step, hstep, hlabel]
        exact .step hgoes (.last rfl)
      · have hgoes : CallbackPc.step h tid t (.queueing evflag) =
            some ({ t with exceptions := next }, .overflowed evflag, none) := by
          simp [CallbackPc.step, hstep, hlabel]
        exact .step hgoes (.last rfl)

/-- `push_excp` on its slot. -/
theorem pushing_run (hshows : t.Shows flagOf s) (hquiet : k.NoFail)
    (hring : t.exceptions.producers h = none) (event : ExceptionEvent) :
    ∃ t' set, CallbackPc.Run h tid t (.pushing event) t' set ∧
      Leaves flagOf k t' set (s.pushExcp k event) := by
  cases hevflag : t.evflag with
  | none =>
    have hnone : s.evflag = none := by rw [← hshows.evflag, hevflag]; rfl
    refine ⟨t, none, .step (by simp [CallbackPc.step, hevflag]) (.returned t), ?_, ?_⟩
    · rw [GdbSessionInner.pushExcp, hnone]
      exact hshows
    · rw [GdbSessionInner.pushExcp, hnone]
      rfl
  | some evflag =>
    have hsome : s.evflag = some (flagOf evflag) := by rw [← hshows.evflag, hevflag]; rfl
    have hpushed : s.pushExcp k event = ({ s with exceptions := (s.exceptions.push event).2 },
        ((flagOf evflag).set k evWakeWorker).2) := by
      rw [GdbSessionInner.pushExcp, hsome]
    have hleaves : Leaves flagOf k
        { t with exceptions := { t.exceptions with cells := (t.exceptions.cells.push event).2 } }
        (some (evflag, evWakeWorker)) (s.pushExcp k event) := by
      rw [hpushed]
      refine ⟨{ hshows with exceptions := ?_ }, EventFlagRef.set_evf hquiet evflag evWakeWorker⟩
      show (t.exceptions.cells.push event).2 = (s.exceptions.toRingCells.push event).2
      rw [hshows.exceptions]
    refine ⟨_, _, ?_, hleaves⟩
    obtain ⟨n, hexec, htrace⟩ := push_run hring event
    obtain ⟨ring, hpush, hrest⟩ := LTS.exec_cons_some hexec
    rw [LTS.trace, hpush] at htrace
    have hgoes : CallbackPc.step h tid t (.pushing event) =
        some ({ t with exceptions := ring }, .queueing evflag, none) := by
      simp [CallbackPc.step, hevflag, hpush]
    exact .step hgoes (queueing_run (t := { t with exceptions := ring }) evflag n ⟨hrest, htrace⟩)

/-- `step_finished` on its slot. -/
theorem taking_run (hshows : t.Shows flagOf s) (hquiet : k.NoFail) :
    ∃ t' set, CallbackPc.Run h tid t .taking t' set ∧
      Leaves flagOf k t' set (s.stepFinished k).2 := by
  cases hstep : t.step with
  | none =>
    have hnone : s.step = none := by rw [← hshows.step, hstep]
    rw [GdbSessionInner.stepFinished_none hnone]
    exact ⟨t, none, .step (by simp [CallbackPc.step, hstep]) (.returned t), hshows, rfl⟩
  | some step =>
    obtain ⟨stepTid, addr⟩ := step
    have hsome : s.step = some (stepTid, addr) := by rw [← hshows.step, hstep]
    have hclear := GdbSessionInner.clearSwBreakpoint_swOnly { s with step := none } k addr
    obtain ⟨k', hevf, hret, hkernel⟩ := GdbSessionInner.stepFinished_setsLast hsome k
    have hslot : ({ t with step := none, stepResult := some stepTid } : ThreadSlot H C).Shows flagOf
        (s.stepFinished k).2.1 := by
      rw [GdbSessionInner.stepFinished_some hsome]
      exact ⟨hshows.pid.trans hclear.pid.symm, hshows.evflag.trans hclear.evflag.symm,
        hclear.step.symm, rfl, hshows.exited.trans hclear.exited.symm,
        by rw [hclear.exceptions]; exact hshows.exceptions⟩
    -- the step is taken, and its result stored
    have hstored : ∀ {t' set}, CallbackPc.Run h tid
        { t with step := none, stepResult := some stepTid } .stored t' set →
        CallbackPc.Run h tid t .taking t' set := by
      intro t' set hrun
      have htaken : CallbackPc.step h tid t .taking =
          some ({ t with step := none }, .took stepTid, none) := by
        simp [CallbackPc.step, hstep]
      exact .step htaken (.step rfl hrun)
    cases hevflag : t.evflag with
    | none =>
      have hnone : s.evflag = none := by rw [← hshows.evflag, hevflag]; rfl
      refine ⟨_, none, hstored (.step ?_ (.panicked _)), hslot, ?_⟩
      · simp only [CallbackPc.step, hevflag]
      · rw [hkernel, hnone]
        exact hevf
    | some evflag =>
      have hflag : s.evflag = some (flagOf evflag) := by rw [← hshows.evflag, hevflag]; rfl
      have hloaded : CallbackPc.step h tid
          { t with step := none, stepResult := some stepTid } .stored =
          some ({ t with step := none, stepResult := some stepTid }, .setting evflag, none) := by
        simp only [CallbackPc.step, hevflag]
      have hquiet' : k'.NoFail := fun n => by
        rw [hret]
        exact hquiet n
      refine ⟨_, some (evflag, evWakeWorker), hstored (.step hloaded (.last rfl)), hslot, ?_⟩
      rw [hkernel, hflag]
      show ((flagOf evflag).set k' evWakeWorker).2.evf = _
      rw [EventFlagRef.set_evf hquiet', setEvf, setEvf, hevf]

/-- **Each entry on its slot.** -/
theorem Entry.run (entry : Entry) (hshows : t.Shows flagOf s) (hquiet : k.NoFail)
    (hring : t.exceptions.producers h = none) :
    ∃ t' set, CallbackPc.Run h tid t entry.pc t' set ∧
      Leaves flagOf k t' set (entry.onSession s k pid tid) := by
  have hflag : ∀ evflag, t.evflag = some evflag → s.evflag = some (flagOf evflag) :=
    fun evflag he => by rw [← hshows.evflag, he]; rfl
  have hnoFlag : t.evflag = none → s.evflag = none := fun he => by rw [← hshows.evflag, he]; rfl
  cases entry with
  | exception halted =>
    have hquiet' : (k.haltForDebug pid tid).NoFail := fun n => by
      rw [(k.haltForDebug_keepsText pid tid).ret]
      exact hquiet n
    have hback : ∀ {t' : ThreadSlot H C} {set y}, Leaves flagOf (k.haltForDebug pid tid) t' set y →
        Leaves flagOf k t' set y := fun hleaves =>
      ⟨hleaves.slot, by rw [hleaves.evf, k.haltForDebug_evf]⟩
    have hhalted : ∀ {t' set}, CallbackPc.Run h tid t (.halted halted) t' set →
        CallbackPc.Run h tid t (.found halted) t' set := fun hrun => .step rfl hrun
    rcases s.queue_cases (k.haltForDebug pid tid) tid halted with
      ⟨stepTid, addr, insn, thumb, hstep, rfl, hqueue⟩ | ⟨hnot, hqueue⟩
    · obtain ⟨t', set, hrun, hleaves⟩ : ∃ t' set, CallbackPc.Run h tid t .taking t' set ∧
          Leaves flagOf (k.haltForDebug pid tid) t' set
            (s.stepFinished (k.haltForDebug pid tid)).2 := taking_run hshows hquiet'
      have hgoes : CallbackPc.step h tid t (.halted (.brk addr insn thumb)) =
          some (t, .taking, none) := by
        simp [CallbackPc.step, hshows.step, hstep]
      refine ⟨t', set, hhalted (.step hgoes hrun), hback ?_⟩
      rw [onSession, hqueue]
      exact hleaves
    · obtain ⟨t', set, hrun, hleaves⟩ : ∃ t' set,
          CallbackPc.Run h tid t (.pushing (GdbSessionInner.queuedEvent tid halted)) t' set ∧
          Leaves flagOf (k.haltForDebug pid tid) t' set
            (s.pushExcp (k.haltForDebug pid tid) (GdbSessionInner.queuedEvent tid halted)) :=
        pushing_run hshows hquiet' hring _
      have hgoes : CallbackPc.step h tid t (.halted halted) =
          some (t, .pushing (GdbSessionInner.queuedEvent tid halted), none) := by
        cases halted with
        | event event => rfl
        | brk addr insn thumb =>
          have hnot : s.isStep addr = false := hnot
          rw [GdbSessionInner.isStep, ← hshows.step] at hnot
          simp only [CallbackPc.step]
          split
          · next hstep =>
            rw [hstep] at hnot
            rw [if_neg (by simpa using hnot)]
          · rfl
      refine ⟨t', set, hhalted (.step hgoes hrun), hback ?_⟩
      rw [onSession, hqueue]
      exact hleaves
  | kill =>
    cases hevflag : t.evflag with
    | none =>
      have hgoes : CallbackPc.step h tid t .exiting = some (t, .returned, none) := by
        simp only [CallbackPc.step, hevflag]
      refine ⟨t, none, .step hgoes (.returned t), ?_⟩
      rw [onSession, GdbSessionInner.pushExited, hnoFlag hevflag]
      exact ⟨hshows, rfl⟩
    | some evflag =>
      have hgoes : CallbackPc.step h tid t .exiting = some (t, .exitStoring evflag, none) := by
        simp only [CallbackPc.step, hevflag]
      refine ⟨{ t with exited := true }, some (evflag, evWakeWorker),
        .step hgoes (.step rfl (.last rfl)), ?_⟩
      have hexited : s.pushExited k =
          ({ s with exited := true }, ((flagOf evflag).set k evWakeWorker).2) := by
        rw [GdbSessionInner.pushExited, hflag evflag hevflag]
      rw [onSession, hexited]
      exact ⟨{ hshows with exited := rfl }, EventFlagRef.set_evf hquiet evflag evWakeWorker⟩
  | create =>
    cases hevflag : t.evflag with
    | none =>
      have hgoes : CallbackPc.step h tid t .starting = some (t, .returned, none) := by
        simp only [CallbackPc.step, hevflag]
      refine ⟨t, none, .step hgoes (.returned t), ?_⟩
      rw [onSession, hnoFlag hevflag]
      exact ⟨hshows, rfl⟩
    | some evflag =>
      have hgoes : CallbackPc.step h tid t .starting = some (t, .settingStarted evflag, none) := by
        simp only [CallbackPc.step, hevflag]
      refine ⟨t, some (evflag, evProcessStarted), .step hgoes (.last rfl), ?_⟩
      rw [onSession, hflag evflag hevflag]
      exact ⟨hshows, EventFlagRef.set_evf hquiet evflag evProcessStarted⟩

end

/-! ## The same steps among the threads -/

section

variable [DecidableEq H] [DecidableEq C] {x : Threads H C} {h : H} {hd : Callback C}

/-- What the steps of one callback leave: its slot, its bits, and where it is. -/
def Threads.advance (x : Threads H C) (h : H) (hd : Callback C) (t : ThreadSlot H C)
    (set : Option (C × U32)) (pc : CallbackPc C) : Threads H C :=
  ((x.setSlot hd.slot t).setBits set).setHandler h { hd with pc := pc }

/-- Steps that set no bits, and then some more. -/
theorem Threads.advance_advance (t t' : ThreadSlot H C) (set : Option (C × U32))
    (pc pc' : CallbackPc C) :
    (x.advance h hd t none pc).advance h { hd with pc := pc } t' set pc' =
      x.advance h hd t' set pc' := by
  cases set with
  | none => simp [advance, setSlot, setBits, setHandler, Function.update_idem]
  | some set => simp [advance, setSlot, setBits, setFlag, setHandler, Function.update_idem]

/-- One step of a callback that has found its slot. -/
theorem threadStep_handler {t : ThreadSlot H C} {set : Option (C × U32)} {pc : CallbackPc C}
    (hhd : x.handlers h = some hd)
    (hstep : hd.pc.step h hd.tid (x.slots hd.slot) = some (t, pc, set)) :
    threadStep x (.handler h) = some (x.advance h hd t set pc) := by
  have hfound : ∀ entry, hd.pc ≠ .scanning entry := fun entry hpc => by
    rw [hpc] at hstep
    exact absurd hstep (by simp [CallbackPc.step])
  show (x.handlers h).bind (handlerStep x h) = _
  rw [hhd, Option.bind_some, handlerStep]
  split
  · next entry hpc => exact absurd hpc (hfound entry)
  · rw [hstep]
    rfl

/-- **What a callback does on its slot it does among the threads.** -/
theorem CallbackPc.Run.exec {tid : SceUID} {s s' : ThreadSlot H C} {pc : CallbackPc C}
    {set : Option (C × U32)} (hrun : CallbackPc.Run h tid s pc s' set) :
    ∀ {x : Threads H C} {hd : Callback C}, x.handlers h = some hd → hd.tid = tid → hd.pc = pc →
      x.slots hd.slot = s → ∃ n pc', pc'.isDone = true ∧
        LTS.exec threadStep x (List.replicate n (.handler h)) =
          some (x.advance h hd s' set pc') := by
  have hstays : ∀ {x : Threads H C} {hd : Callback C}, x.handlers h = some hd →
      x.advance h hd (x.slots hd.slot) none hd.pc = x := by
    intro x hd hhd
    simp only [Threads.advance, Threads.setBits, Threads.setSlot, Threads.setHandler,
      Function.update_eq_self]
    rw [← hhd, Function.update_eq_self]
  induction hrun with
  | returned s =>
    rintro x hd hhd - hpc rfl
    exact ⟨0, .returned, rfl, by rw [← hpc, hstays hhd]; rfl⟩
  | panicked s =>
    rintro x hd hhd - hpc rfl
    exact ⟨0, .panicked, rfl, by rw [← hpc, hstays hhd]; rfl⟩
  | @step s s' s'' pc pc' set hstep _ ih =>
    rintro x hd hhd rfl rfl rfl
    have hslot : (x.advance h hd s' none pc').slots hd.slot = s' := Function.update_self _ _ _
    obtain ⟨n, pc'', hdone, hexec⟩ := ih (x := x.advance h hd s' none pc')
      (Threads.setHandler_self _ h _) rfl rfl hslot
    refine ⟨n + 1, pc'', hdone, ?_⟩
    rw [List.replicate_succ, LTS.exec_cons, threadStep_handler hhd hstep, Option.bind_some, hexec,
      Threads.advance_advance]
  | last hstep =>
    rintro x hd hhd rfl rfl rfl
    refine ⟨1, .returned, rfl, ?_⟩
    rw [List.replicate_one, LTS.exec_cons, threadStep_handler hhd hstep]
    rfl

/-- The scan passes the slots of other processes. -/
theorem scanning_passes {pid tid : SceUID} {entry : Entry}
    (hhd : x.handlers h = some ⟨pid, tid, 0, .scanning entry⟩) :
    ∀ (j : Nat) (hj : j < 4), (∀ i : Fin 4, i.val < j → (x.slots i).pid ≠ pid) →
      LTS.exec threadStep x (List.replicate j (.handler h)) =
        some (x.setHandler h ⟨pid, tid, ⟨j, hj⟩, .scanning entry⟩) := by
  intro j
  induction j with
  | zero =>
    intro _ _
    have hsame : x.setHandler h ⟨pid, tid, 0, .scanning entry⟩ = x := by
      rw [Threads.setHandler, ← hhd, Function.update_eq_self]
    exact congrArg some hsame.symm
  | succ j ih =>
    intro hj hothers
    have hpass : ¬ (x.slots ⟨j, by omega⟩).pid = pid := hothers ⟨j, by omega⟩ (Nat.lt_succ_self j)
    rw [List.replicate_succ', LTS.exec_append,
      ih (by omega) fun i hi => hothers i (Nat.lt_succ_of_lt hi), Option.bind_some, LTS.exec_cons]
    simp [threadStep, handlerStep, Threads.setHandler, hpass, nextSlot, hj, Function.update_idem]

/-- **`find_session_for_pid` among the threads**: the slot is found, or the callback is done. -/
theorem scanning_run {pool : SessionPool} {pid tid : SceUID} {entry : Entry}
    (hhd : x.handlers h = some ⟨pid, tid, 0, .scanning entry⟩)
    (hpids : ∀ i, (x.slots i).pid = (pool i).pid) :
    ∃ n, LTS.exec threadStep x (List.replicate n (.handler h)) =
      some (x.setHandler h (match findSessionForPid pool pid with
        | some i => ⟨pid, tid, i, entry.pc⟩
        | none => ⟨pid, tid, 3, .missed⟩)) := by
  cases hfound : findSessionForPid pool pid with
  | some i =>
    have hfirst : ∀ j : Fin 4, j.val < i.val → (x.slots j).pid ≠ pid := fun j hj => by
      rw [hpids]
      exact SessionPool.slotOf_first hfound hj
    have hpid : (x.slots i).pid = pid := by rw [hpids, SessionPool.slotOf_some hfound]
    refine ⟨i.val + 1, ?_⟩
    rw [List.replicate_succ', LTS.exec_append, scanning_passes hhd i.val i.isLt hfirst,
      Option.bind_some, LTS.exec_cons]
    simp [threadStep, handlerStep, Threads.setHandler, hpid, Function.update_idem]
  | none =>
    have hnone : ∀ j, (x.slots j).pid ≠ pid := fun j => by
      rw [hpids]
      exact SessionPool.slotOf_eq_none.mp hfound j
    refine ⟨3 + 1, ?_⟩
    rw [List.replicate_succ', LTS.exec_append, scanning_passes hhd 3 (by omega) fun j _ => hnone j,
      Option.bind_some, LTS.exec_cons]
    simp [threadStep, handlerStep, Threads.setHandler, hnone, nextSlot, Function.update_idem]

/-- The picture after a callback. -/
theorem Threads.Shows.advance {w : World} (hflagOf : Function.Injective fun c => (flagOf c).evfid)
    (hshows : x.Shows flagOf w) {t : ThreadSlot H C} {set : Option (C × U32)}
    {y : GdbSessionInner × Kernel} (hleaves : Leaves flagOf w.kernel t set y) (pc : CallbackPc C) :
    (x.advance h hd t set pc).Shows flagOf (w.put hd.slot y.1 y.2) where
  slots := by
    intro i
    have hslots : (x.advance h hd t set pc).slots = Function.update x.slots hd.slot t := by
      cases set <;> rfl
    rw [hslots]
    show ThreadSlot.Shows flagOf _ (Function.update w.pool hd.slot y.1 i)
    by_cases hi : i = hd.slot
    · rw [hi, Function.update_self, Function.update_self]
      exact hleaves.slot
    · rw [Function.update_of_ne hi, Function.update_of_ne hi]
      exact hshows.slots i
  flags := by
    intro c
    rw [World.put_kernel, hleaves.evf]
    cases set with
    | none => exact hshows.flags c
    | some set =>
      obtain ⟨d, bits⟩ := set
      show Function.update x.flags d (x.flags d ||| bits) c = _
      by_cases hc : c = d
      · rw [hc, Function.update_self, setEvf, Function.update_self, hshows.flags]
      · have hne : (flagOf c).evfid ≠ (flagOf d).evfid := fun he => hc (hflagOf he)
        rw [Function.update_of_ne hc, setEvf, Function.update_of_ne hne, hshows.flags]

/-- **A callback that is left alone does what the whole function does**, for each of its entries. -/
theorem callback_run {w : World} (hflagOf : Function.Injective fun c => (flagOf c).evfid)
    (hshows : x.Shows flagOf w) (hquiet : w.kernel.NoFail) (hfree : x.handlers h = none)
    (hring : ∀ i, (x.slots i).exceptions.producers h = none) {pid tid : SceUID} {entry : Entry}
    (hpid : pid ≠ pidUnused) (hof : entry.IsOf tid) :
    ∃ n y hd, LTS.exec threadStep x (.enter h pid tid entry :: List.replicate n (.handler h)) =
        some y ∧ y.handlers h = some hd ∧ hd.pc.isDone = true ∧
      y.Shows flagOf (entry.handle w pid tid) := by
  have henter : threadStep x (.enter h pid tid entry) =
      some (x.setHandler h ⟨pid, tid, 0, .scanning entry⟩) := by
    simp only [threadStep, hfree]
    rw [if_pos ⟨hpid, hof⟩]
  obtain ⟨n, hscan⟩ := scanning_run (x := x.setHandler h ⟨pid, tid, 0, .scanning entry⟩)
    (x.setHandler_self h _) fun i => (hshows.slots i).pid
  have hentered : ∀ hd, (x.setHandler h ⟨pid, tid, 0, .scanning entry⟩).setHandler h hd =
      x.setHandler h hd := fun hd => by
    simp [Threads.setHandler, Function.update_idem]
  cases hfound : findSessionForPid w.pool pid with
  | none =>
    rw [hfound, hentered] at hscan
    refine ⟨n, _, ⟨pid, tid, 3, .missed⟩, ?_, x.setHandler_self h _, rfl, ?_⟩
    · rw [LTS.exec_cons, henter, Option.bind_some, hscan]
    · rw [Entry.handle, hfound]
      exact ⟨hshows.slots, hshows.flags⟩
  | some i =>
    rw [hfound, hentered] at hscan
    obtain ⟨t, set, hrun, hleaves⟩ : ∃ t set, CallbackPc.Run h tid (x.slots i) entry.pc t set ∧
        Leaves flagOf w.kernel t set (entry.onSession (w.pool i) w.kernel pid tid) :=
      entry.run (hshows.slots i) hquiet (hring i)
    obtain ⟨m, pc, hdone, hexec⟩ := hrun.exec (x := x.setHandler h ⟨pid, tid, i, entry.pc⟩)
      (x.setHandler_self h _) rfl rfl rfl
    let hd : Callback C := ⟨pid, tid, i, entry.pc⟩
    refine ⟨n + m, (x.setHandler h hd).advance h hd t set pc, { hd with pc := pc }, ?_,
      Threads.setHandler_self _ h _, hdone, ?_⟩
    · rw [LTS.exec_cons, henter, Option.bind_some, List.replicate_add, LTS.exec_append, hscan]
      exact hexec
    · have hscanned : (x.setHandler h hd).Shows flagOf w := ⟨hshows.slots, hshows.flags⟩
      rw [Entry.handle, hfound]
      show ((x.setHandler h hd).advance h hd t set pc).Shows flagOf (w.put hd.slot _ _)
      exact hscanned.advance hflagOf hleaves pc

end

end VitaGdb
