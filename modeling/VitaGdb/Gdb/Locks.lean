/-
  The spin locks of the debugger: which function takes which lock, inside which other.

  Each slot of the session pool has five locks, one for each table or cell of it, and the console
  has one more, which `println!` takes.  A `Spinlock` is held through a guard; taking it suspends
  interrupts and dropping the guard puts back the state found.  The bodies below keep of each
  function what bears on locks and on the interrupt mask: guards with the statements they span,
  `return` and `?`, the panics of `unwrap`, the calls made, and the accesses to guarded data.  No
  caller of these functions holds a guard while it calls one, so what a thread does is any sequence
  of such calls.

  Spec:
    * `locks_run_through` — any threads, any calls on any slots, any schedule: only the owner of a
      lock touches its data, and does so with interrupts suspended; no thread waits in vain; every
      run can be led to its end;
    * `calls_keep_mask` — a call leaves the interrupt mask as it found it, but for the two functions
      that write text outside every guard.

  Crux: `clear_all` nests the tables in the order breakpoints, watchpoints, software breakpoints;
  `println!` nests inside everything; nothing else nests, and no `unwrap` is inside a guard.  The
  write of text that `clear_sw_breakpoint` makes may lose a suspension too (CpuState counts those);
  there it is inside a guard, and dropping the guard makes up for it.
-/
import VitaGdb.Lib.RankedLocks

namespace VitaGdb

open RankedLocks

/-- The locks of a slot. -/
inductive SlotLock where
  | hwBreakpoints
  | hwWatchpoints
  | swBreakpoints
  | step
  | stepResult
  deriving DecidableEq, Repr

/-- The locks of the module. -/
inductive ModuleLock where
  | slot (i : Fin 4) (l : SlotLock)
  /-- `PRINTLN_LOCK`. -/
  | println
  deriving DecidableEq

/-- What a thread does between two operations on locks. -/
inductive LockedAct where
  /-- A look at, or a change of, the data behind a lock of a slot. -/
  | table (i : Fin 4) (l : SlotLock)
  /-- `ksceKernelDebugPutchar`. -/
  | putchar
  /-- A kernel call, and whether it goes through. -/
  | sceCall (func : String) (ok : Bool)
  deriving DecidableEq

/-- The order in which the locks are nested. -/
def lockRank : ModuleLock → Nat
  | .slot _ .hwBreakpoints => 0
  | .slot _ .hwWatchpoints => 1
  | .slot _ .swBreakpoints => 2
  | .slot _ .step => 3
  | .slot _ .stepResult => 4
  | .println => 5

/-- The lock an access needs. -/
def lockOf : LockedAct → Option ModuleLock
  | .table i l => some (.slot i l)
  | .putchar => some .println
  | .sceCall _ _ => none

/-! ## The bodies -/

namespace LockCode

/-- The body of a function of the module. -/
abbrev Body := Code ModuleLock LockedAct

/-- Statements, one after the other. -/
def block : List Body → Body := List.foldr .seq .skip

/-- `println!`. -/
def println : Body := .guard .println (.loop (.act .putchar))

/-- `sce_call!`, with either answer looked at. -/
def sceCall (func : String) : Body := .alt (.act (.sceCall func true)) (.act (.sceCall func false))

/-- `sce_call!` and `?`. -/
def sceTry (func : String) : Body :=
  .alt (.act (.sceCall func true)) (.seq (.act (.sceCall func false)) .ret)

/-- `unwrap`: the panic handler prints, and never ends. -/
def unwrap : Body := .alt .skip (.seq println .panic)

/-- A statement that locks a cell or a table of the slot for itself. -/
def locked (i : Fin 4) (l : SlotLock) : Body := .guard (.slot i l) (.act (.table i l))

/-- `write_user_text`. -/
def writeUserText : Body :=
  block [sceTry "ksceKernelCopyToUserProcTextDomain",
    .intr (block [sceTry "ksceKernelProcessGetContext",
      sceTry "ksceKernelProcessSwitchContext",
      sceTry "ksceKernelProcessSwitchContext"])]

/-- `EventFlagRef::set`. -/
def evflagSet : Body :=
  .alt (.act (.sceCall "ksceKernelSetEventFlag" true))
    (block [.act (.sceCall "ksceKernelSetEventFlag" false), println, .ret])

/-- `EventFlagRef::clear`. -/
def evflagClear : Body := sceTry "ksceKernelClearEventFlag"

/-- `reset`. -/
def reset (i : Fin 4) : Body :=
  block [.alt (.call evflagClear) .skip,
    locked i .hwBreakpoints,
    locked i .hwWatchpoints,
    locked i .swBreakpoints,
    locked i .step]

/-- `push_excp`. -/
def pushExcp : Body := block [.alt .skip .ret, .alt .skip println, .call evflagSet]

/-- `push_exited`. -/
def pushExited : Body := block [.alt .skip .ret, .call evflagSet]

/-- `set_step`. -/
def setStep (i : Fin 4) : Body := locked i .step

/-- `is_step`: the guard is a temporary of the `let`. -/
def isStep (i : Fin 4) : Body := block [locked i .step, .alt .skip .ret]

/-- `pop_step_finished`. -/
def popStepFinished (i : Fin 4) : Body := locked i .stepResult

/-- The loop over a guarded table: each turn looks at a slot, and goes on to the next or does what
    is done there. -/
def scan (i : Fin 4) (l : SlotLock) (found : List Body) : Body :=
  .loop (block [.act (.table i l), .alt .skip (block found)])

/-- `has_watchpoint`. -/
def hasWatchpoint (i : Fin 4) : Body :=
  .guard (.slot i .hwWatchpoints) (scan i .hwWatchpoints [.ret])

/-- `set_hw_watchpoint`. -/
def setHwWatchpoint (i : Fin 4) : Body :=
  block [.alt .skip .ret, unwrap,
    .guard (.slot i .hwWatchpoints) (block [
      scan i .hwWatchpoints
        [.alt (block [sceTry "sceKernelSetPHWP", .act (.table i .hwWatchpoints)]) .skip, .ret],
      scan i .hwWatchpoints [sceTry "sceKernelSetPHWP", .act (.table i .hwWatchpoints), .ret]])]

/-- `clear_hw_watchpoint`. -/
def clearHwWatchpoint (i : Fin 4) : Body :=
  block [.alt .skip .ret, unwrap,
    .guard (.slot i .hwWatchpoints)
      (scan i .hwWatchpoints [sceTry "sceKernelSetPHWP", .act (.table i .hwWatchpoints), .ret])]

/-- `set_hw_breakpoint`. -/
def setHwBreakpoint (i : Fin 4) : Body :=
  block [.alt .skip .ret, unwrap,
    .guard (.slot i .hwBreakpoints) (block [
      scan i .hwBreakpoints [.ret],
      scan i .hwBreakpoints [sceTry "sceKernelSetPHBP", .act (.table i .hwBreakpoints), .ret]])]

/-- `clear_hw_breakpoint`. -/
def clearHwBreakpoint (i : Fin 4) : Body :=
  block [.alt .skip .ret, unwrap,
    .guard (.slot i .hwBreakpoints)
      (scan i .hwBreakpoints [sceTry "sceKernelSetPHBP", .act (.table i .hwBreakpoints), .ret])]

/-- `set_sw_breakpoint`: the text is written between two sections, under no guard. -/
def setSwBreakpoint (i : Fin 4) : Body :=
  block [println, .alt .skip .ret,
    .alt .skip (block [println, .ret]),
    sceCall "ksceKernelCopyFromUserProc",
    .alt .skip (block [println, .ret]),
    println,
    .guard (.slot i .swBreakpoints) (block [
      scan i .swBreakpoints [.ret],
      scan i .swBreakpoints [.act (.table i .swBreakpoints)]]),
    .alt .skip .ret,
    println,
    .call writeUserText,
    .alt .skip (block [println, locked i .swBreakpoints])]

/-- `restore_sw_slot`. -/
def restoreSwSlot (i : Fin 4) : Body :=
  block [.act (.table i .swBreakpoints), .alt .skip .ret, .call writeUserText]

/-- `clear_sw_breakpoint`: the text is written, and a failure printed, under the guard. -/
def clearSwBreakpoint (i : Fin 4) : Body :=
  block [.alt .skip .ret, println,
    .guard (.slot i .swBreakpoints) (scan i .swBreakpoints [.call (restoreSwSlot i),
      .alt .skip (block [println, .ret]), .act (.table i .swBreakpoints), .ret])]

/-- `step_finished`. -/
def stepFinished (i : Fin 4) : Body :=
  block [locked i .step, .alt .skip .ret, .call (clearSwBreakpoint i), locked i .stepResult, unwrap,
    .call evflagSet]

/-- `clear_all`: each guard lives to the end of the function. -/
def clearAll (i : Fin 4) : Body :=
  .guard (.slot i .hwBreakpoints) (block [
    scan i .hwBreakpoints [sceCall "sceKernelSetPHBP", .act (.table i .hwBreakpoints)],
    .guard (.slot i .hwWatchpoints) (block [
      scan i .hwWatchpoints [sceCall "sceKernelSetPHWP"],
      .guard (.slot i .swBreakpoints) (scan i .swBreakpoints [.call (restoreSwSlot i)])])])

/-- `dump_state`: the guard is a temporary of each loop's head. -/
def dumpState (i : Fin 4) : Body :=
  block [.guard (.slot i .hwBreakpoints) (scan i .hwBreakpoints []),
    .guard (.slot i .hwWatchpoints) (scan i .hwWatchpoints []),
    .guard (.slot i .swBreakpoints) (scan i .swBreakpoints [])]

/-- `write_addrs`. -/
def writeAddrs : Body := block [.alt .skip .ret, .call writeUserText, .alt .skip (block [println, .ret])]

end LockCode

/-- The functions that take locks or write text, as their callers name them; `print` is any other
    statement that prints. -/
inductive LockingFn where
  | reset | pushExcp | pushExited | setStep | isStep | stepFinished | popStepFinished
  | hasWatchpoint | setHwWatchpoint | clearHwWatchpoint | setHwBreakpoint | clearHwBreakpoint
  | setSwBreakpoint | clearSwBreakpoint | clearAll | dumpState | writeAddrs | print
  deriving DecidableEq

/-- The body of a function, called on the slot `i`. -/
def LockingFn.body (i : Fin 4) : LockingFn → LockCode.Body
  | reset => LockCode.reset i
  | pushExcp => LockCode.pushExcp
  | pushExited => LockCode.pushExited
  | setStep => LockCode.setStep i
  | isStep => LockCode.isStep i
  | stepFinished => LockCode.stepFinished i
  | popStepFinished => LockCode.popStepFinished i
  | hasWatchpoint => LockCode.hasWatchpoint i
  | setHwWatchpoint => LockCode.setHwWatchpoint i
  | clearHwWatchpoint => LockCode.clearHwWatchpoint i
  | setHwBreakpoint => LockCode.setHwBreakpoint i
  | clearHwBreakpoint => LockCode.clearHwBreakpoint i
  | setSwBreakpoint => LockCode.setSwBreakpoint i
  | clearSwBreakpoint => LockCode.clearSwBreakpoint i
  | clearAll => LockCode.clearAll i
  | dumpState => LockCode.dumpState i
  | writeAddrs => LockCode.writeAddrs
  | print => LockCode.println

/-- What a thread does: calls, one after the other. -/
def threadBody (calls : List (Fin 4 × LockingFn)) : LockCode.Body :=
  LockCode.block (calls.map fun call => .call (call.2.body call.1))

/-! ## Any threads, any schedule -/

/-- **Every function takes its locks in rising rank**, touches only what it has locked, and panics
    outside every guard. -/
theorem body_ok (i : Fin 4) (f : LockingFn) : (f.body i).ok lockRank lockOf [] = true := by
  revert i
  cases f <;> decide

theorem threadBody_ok (calls : List (Fin 4 × LockingFn)) :
    (threadBody calls).ok lockRank lockOf [] = true := by
  induction calls with
  | nil => rfl
  | cons call calls ih =>
    show ((call.2.body call.1).ok lockRank lockOf [] &&
      (threadBody calls).ok lockRank lockOf []) = true
    rw [body_ok, ih]
    rfl

theorem lockRank_lt (l : ModuleLock) : lockRank l < 6 := by
  cases l with
  | slot i l => cases l <;> simp [lockRank]
  | println => simp [lockRank]

/-- Threads that have made no step yet: no lock is owned, and each thread has a run of some calls
    before it. -/
structure Starting {T : Type} (x : State T ModuleLock LockedAct) : Prop where
  free : ∀ l, x.owner l = none
  calls : ∀ t, ∃ calls e, Runs (threadBody calls) (x.threads t).todo e
  kept : ∀ t, (x.threads t).masks.kept = []

theorem Starting.sound {T : Type} {x : State T ModuleLock LockedAct} (h : Starting x) :
    Sound lockRank lockOf x := by
  refine ⟨fun _ => [], ?_, ?_, ?_, fun _ => List.nodup_nil⟩
  · intro l t
    rw [h.free l]
    exact ⟨fun heq => absurd heq (by simp), fun hmem => absurd hmem List.not_mem_nil⟩
  · intro t
    obtain ⟨calls, e, hruns⟩ := h.calls t
    rw [← List.append_nil (x.threads t).todo]
    exact ok_disciplined hruns (threadBody_ok calls) (by split <;> rfl)
  · intro t
    rw [h.kept t]
    trivial

/-- What threads may rely on in a state `y` that a run from `x` leads to. -/
structure LocksWork {T : Type} [DecidableEq T] [Fintype T] (y : State T ModuleLock LockedAct) :
    Prop where
  /-- The data behind a lock is touched by the owner of the lock. -/
  touches : ∀ t a ops l, (y.threads t).todo = .act a :: ops → lockOf a = some l →
    y.owner l = some t
  /-- The owner of a lock is not interrupted. -/
  masked : ∀ l t, y.owner l = some t → (y.threads t).masks.mask = true
  /-- A thread that has ended, or panicked, owns nothing. -/
  released : ∀ t, (y.threads t).todo = [] → ∀ l, y.owner l ≠ some t
  /-- While a thread has work left, some thread can go on. -/
  progress : ∀ t, (y.threads t).todo ≠ [] → ∃ u, (step y u).isSome
  /-- All threads can be run to their ends. -/
  completes : ∃ es z, LTS.exec step y es = some z ∧ (∀ t, (z.threads t).todo = []) ∧
    ∀ l, z.owner l = none

/-- **The locks of the debugger run through**: for any threads that make any calls on any slots,
    under any schedule. -/
theorem locks_run_through {T : Type} [DecidableEq T] [Fintype T]
    {x y : State T ModuleLock LockedAct} (hstart : Starting x) (es : List T)
    (hrun : LTS.exec step x es = some y) : LocksWork y ∧ es.length + left y = left x := by
  have hsound := hstart.sound.run es hrun
  refine ⟨⟨?_, ?_, ?_, ?_, ?_⟩, exec_length es hrun⟩
  · intro t a ops l htodo hlock
    exact hsound.touches htodo hlock
  · intro l t howner
    exact hsound.masked howner
  · intro t hdone l
    exact hsound.finished hdone l
  · intro t hleft
    exact hsound.progress lockRank_lt hleft
  · obtain ⟨fs, z, hfs, hdone⟩ := Sound.completes lockRank_lt _ hsound rfl
    refine ⟨fs, z, hfs, hdone, fun l => ?_⟩
    cases howner : z.owner l with
    | none => rfl
    | some t => exact absurd howner ((hsound.run fs hfs).finished (hdone t) l)

/-- One way through a function on slot 0. -/
def oneWay (f : LockingFn) (choices : List Bool) : List (Op ModuleLock LockedAct) :=
  ((threadBody [(0, f)]).walk 80 choices).elim [] Prod.fst

/-- The choices of a scan that goes past `n` slots. -/
def passing (n : Nat) : List Bool := (List.replicate n [true, true]).flatten

/-- The choices of `restore_sw_slot` where there is a breakpoint and no call fails. -/
def restoring : List Bool := [true, true, true, true, true]

/-- `clear_all` where the third software breakpoint is the only one. -/
def clearingOne : List Bool :=
  passing 6 ++ [false] ++ passing 3 ++ [false] ++
    passing 2 ++ [true, false] ++ restoring ++ passing 13 ++ [false]

/-- `step_finished` where the breakpoint of the step is the fourth: its thirty characters are printed
    and the text is restored. -/
def finishingOne : List Bool :=
  [true, true] ++ List.replicate 30 true ++ [false] ++
    passing 3 ++ [true, false] ++ restoring ++ [true] ++ [true, true]

/-- Two threads on one slot: the worker ends the session (`true`), a handler the step. -/
def endAndStep : State Bool ModuleLock LockedAct where
  owner := fun _ => none
  threads
    | true => ⟨oneWay .clearAll clearingOne, ⟨false, []⟩⟩
    | false => ⟨oneWay .stepFinished finishingOne, ⟨false, []⟩⟩

/-- The worker holds the breakpoints and the handler the step; neither stops the other. -/
theorem locks_run_through_endAndStep :
    ∃ y, LTS.exec step endAndStep [true, true, true, false, true] = some y ∧
      (y.owner (.slot 0 .hwBreakpoints) = some true ∧ y.owner (.slot 0 .step) = some false) ∧
      LocksWork y ∧ 5 + left y = left endAndStep := by
  have hstart : Starting endAndStep := by
    refine ⟨fun _ => rfl, fun t => ?_, fun t => by cases t <;> rfl⟩
    cases t with
    | true => exact ⟨[(0, .clearAll)], .through, walk_runs 80 _ clearingOne rfl⟩
    | false => exact ⟨[(0, .stepFinished)], .through, walk_runs 80 _ finishingOne rfl⟩
  have hrun : ∃ y, LTS.exec step endAndStep [true, true, true, false, true] = some y ∧
      y.owner (.slot 0 .hwBreakpoints) = some true ∧ y.owner (.slot 0 .step) = some false :=
    ⟨_, rfl, by decide, by decide⟩
  obtain ⟨y, hy, howners⟩ := hrun
  obtain ⟨hworks, hleft⟩ := locks_run_through hstart [true, true, true, false, true] hy
  exact ⟨y, hy, howners, hworks, hleft⟩

/-! ## One call and the interrupt mask -/

/-- Some way through the function loses a suspension of interrupts outside every guard. -/
def LockingFn.Leaks (i : Fin 4) (f : LockingFn) : Prop :=
  ∃ ops e, Runs (f.body i) ops e ∧ e ≠ .panicked ∧ leaks 0 ops = true

/-- The two functions that write text under no guard. -/
theorem mayLeak_iff (i : Fin 4) (f : LockingFn) :
    (f.body i).mayLeak = true ↔ f = .setSwBreakpoint ∨ f = .writeAddrs := by
  revert i
  cases f <;> decide

/-- A write of text whose context cannot be fetched, under no guard. -/
theorem setSwBreakpoint_leaks (i : Fin 4) : LockingFn.setSwBreakpoint.Leaks i := by
  -- nothing printed, a free slot found, the copy made
  have hwalk : ∃ ops, (LockingFn.setSwBreakpoint.body i).walk 40
      [false, true, true, true, true, false, false, true, false, false, true, false, true, false,
        true] = some (ops, .through, []) ∧ leaks 0 ops = true := ⟨_, rfl, rfl⟩
  obtain ⟨ops, hops, hleaks⟩ := hwalk
  exact ⟨ops, .through, walk_runs _ _ _ hops, by simp, hleaks⟩

theorem writeAddrs_leaks (i : Fin 4) : LockingFn.writeAddrs.Leaks i := by
  have hwalk : ∃ ops, (LockingFn.writeAddrs.body i).walk 40 [true, true, false, true] =
      some (ops, .through, []) ∧ leaks 0 ops = true := ⟨_, rfl, rfl⟩
  obtain ⟨ops, hops, hleaks⟩ := hwalk
  exact ⟨ops, .through, walk_runs _ _ _ hops, by simp, hleaks⟩

/-- **A call leaves the interrupt mask as it found it**, on every way through every function that
    locks or writes text, but for a suspension lost outside every guard; and such a way through
    exists in two functions only. -/
theorem calls_keep_mask (i : Fin 4) (f : LockingFn) :
    (∀ ops e, Runs (f.body i) ops e → e ≠ .panicked → ∀ m : Masks,
      ops.foldl Op.masks m = ⟨m.mask || leaks 0 ops, m.kept⟩) ∧
    (f.Leaks i ↔ f = .setSwBreakpoint ∨ f = .writeAddrs) := by
  refine ⟨fun ops e hruns he m => runs_masks hruns he m, ?_, ?_⟩
  · rintro ⟨ops, e, hruns, he, hleaks⟩
    rw [← mayLeak_iff i]
    by_contra hmay
    rw [not_leaks hruns he (Bool.not_eq_true _ ▸ hmay)] at hleaks
    exact absurd hleaks (by simp)
  · rintro (rfl | rfl)
    · exact setSwBreakpoint_leaks i
    · exact writeAddrs_leaks i

end VitaGdb
