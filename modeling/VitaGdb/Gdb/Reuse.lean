/-
  The life of a pool slot: claimed, used, dropped, claimed again.

  A run is any list of claims, session calls and drops of one slot.  A free slot should be as good
  as new: every table, the pending step, the step result, the exit flag and the queue as in
  `uninit` (`FreshSlot`), so that the next session has nothing to report that is not its own.

  `drop` resets all of these but the step result, which it leaves as it was (`drop_frame`).  So a
  drop leaves a fresh slot exactly when no step result was waiting (`drop_fresh_iff`), and along
  every run whose drops meet that, every free slot is fresh (`slotLife_fresh`).
-/
import VitaGdb.Lib.Runs
import VitaGdb.Gdb.EventLoop

namespace VitaGdb

open GdbSessionInner

/-! ## The calls of a session -/

/-- The calls made on a session while it lives. -/
inductive SessionCall where
  | setSwBreakpoint (addr : U32) (kind : ArmBreakpointKind)
  | clearSwBreakpoint (addr : U32)
  | setHwBreakpoint (addr : U32)
  | clearHwBreakpoint (addr : U32)
  | setHwWatchpoint (addr len : U32) (kind : WatchKind)
  | clearHwWatchpoint (addr : U32)
  | setStep (tid : SceUID) (addr : U32)
  | stepFinished
  | pushExcp (event : ExceptionEvent)
  | pushExited
  | popExited
  | popStepFinished
  | popExcp
  | clearAll

/-- One call; what it returns is not looked at here. -/
def sessionCall (s : GdbSessionInner) (k : Kernel) : SessionCall → GdbSessionInner × Kernel
  | .setSwBreakpoint addr kind => (s.setSwBreakpoint k addr kind).2
  | .clearSwBreakpoint addr => (s.clearSwBreakpoint k addr).2
  | .setHwBreakpoint addr => (s.setHwBreakpoint k addr).2
  | .clearHwBreakpoint addr => (s.clearHwBreakpoint k addr).2
  | .setHwWatchpoint addr len kind => (s.setHwWatchpoint k addr len kind).2
  | .clearHwWatchpoint addr => (s.clearHwWatchpoint k addr).2
  | .setStep tid addr => (s.setStep tid addr, k)
  | .stepFinished => (s.stepFinished k).2
  | .pushExcp event => s.pushExcp k event
  | .pushExited => s.pushExited k
  | .popExited => (s.popExited.2, k)
  | .popStepFinished => (s.popStepFinished.2, k)
  | .popExcp => (s.popExcp.2, k)
  | .clearAll => s.clearAll k

/-! ## The life of a slot -/

/-- A slot, whether a session owns it, and the kernel. -/
structure Slot where
  live : Bool
  session : GdbSessionInner
  kernel : Kernel

inductive SlotEvent where
  | claim (pid : SceUID) (evflag : EventFlagRef)
  | call (call : SessionCall)
  | drop

/-- A slot after `GdbSession::new` claimed it. -/
def claimed (s : GdbSessionInner) (pid : SceUID) (evflag : EventFlagRef) : GdbSessionInner :=
  { s with pid := pid, evflag := some evflag }

/-- Claims are of free slots, calls and drops of owned ones. -/
def slotStep (x : Slot) : SlotEvent → Option Slot
  | .claim pid evflag =>
    if x.live then none else some { x with live := true, session := claimed x.session pid evflag }
  | .call call =>
    if x.live then
      let (s, k) := sessionCall x.session x.kernel call
      some { x with session := s, kernel := k }
    else none
  | .drop =>
    if x.live then
      let (s, k) := x.session.drop x.kernel
      some { live := false, session := s, kernel := k }
    else none

/-- The slot's tables, step, step result, exit flag and queue are those of `uninit`. -/
structure FreshSlot (s : GdbSessionInner) : Prop where
  hwBreakpoints : s.hwBreakpoints = uninit.hwBreakpoints
  hwWatchpoints : s.hwWatchpoints = uninit.hwWatchpoints
  swBreakpoints : s.swBreakpoints = uninit.swBreakpoints
  step : s.step = uninit.step
  stepResult : s.stepResult = uninit.stepResult
  exited : s.exited = uninit.exited
  exceptions : s.exceptions.pending = uninit.exceptions.pending

/-- A free slot is fresh, and whoever claims it has nothing to report. -/
def FreeIsFresh (x : Slot) : Prop :=
  x.live = false → FreshSlot x.session ∧
    ∀ pid evflag, (claimed x.session pid evflag).popStop.1 = .ok none

/-- A drop comes when no step result is waiting. -/
def DropsPopped (x : Slot) : SlotEvent → Prop
  | .drop => x.session.stepResult = none
  | _ => True

/-! ## What a drop leaves -/

/-- A drop resets everything but the step result. -/
theorem drop_frame (s : GdbSessionInner) (k : Kernel) :
    (s.drop k).1 = { uninit with
      evflag := (s.drop k).1.evflag
      stepResult := s.stepResult
      exceptions := s.exceptions.clear.2 } := rfl

/-- **A drop leaves a fresh slot** exactly when no step result was waiting. -/
theorem drop_fresh_iff (s : GdbSessionInner) (k : Kernel) :
    FreshSlot (s.drop k).1 ↔ s.stepResult = none := by
  constructor
  · intro h
    exact h.stepResult
  · intro h
    refine ⟨rfl, rfl, rfl, rfl, h, rfl, ?_⟩
    show s.exceptions.clear.2.pending = _
    rw [s.exceptions.pending_clear.1]
    exact MpscRing.pending_new.symm

/-- Whoever claims a fresh slot has nothing to report. -/
theorem FreshSlot.popStop {s : GdbSessionInner} (h : FreshSlot s) (pid : SceUID)
    (evflag : EventFlagRef) : (claimed s pid evflag).popStop.1 = .ok none := by
  refine popStop_none_iff.mpr ⟨h.exited, h.stepResult, ?_⟩
  show s.exceptions.pending = []
  rw [h.exceptions]
  exact MpscRing.pending_new

/-! ## Whole lives -/

/-- One event. -/
theorem FreeIsFresh.step {x y : Slot} {e : SlotEvent} (hpopped : DropsPopped x e)
    (hy : slotStep x e = some y) : FreeIsFresh y := by
  intro hfree
  cases e with
  | claim pid evflag =>
    rw [slotStep] at hy
    split at hy
    · exact absurd hy (by simp)
    · rw [← Option.some.inj hy] at hfree
      exact absurd hfree (by simp)
  | call call =>
    rw [slotStep] at hy
    split at hy
    · next hlive =>
      rw [← Option.some.inj hy] at hfree
      exact absurd (hlive.symm.trans hfree) (by simp)
    · exact absurd hy (by simp)
  | drop =>
    rw [slotStep] at hy
    split at hy
    · have hfresh := (drop_fresh_iff x.session x.kernel).mpr hpopped
      rw [← Option.some.inj hy]
      exact ⟨hfresh, hfresh.popStop⟩
    · exact absurd hy (by simp)

/-- **A reused slot is a fresh one**: along every run of a pool slot, if every drop comes when
    no step result is waiting, every free slot is fresh and whoever claims it has nothing to
    report. -/
theorem slotLife_fresh (k : Kernel) (events : List SlotEvent)
    (hpopped : LTS.Along slotStep DropsPopped ⟨false, uninit, k⟩ events) (x : Slot)
    (hrun : LTS.exec slotStep ⟨false, uninit, k⟩ events = some x) : FreeIsFresh x := by
  have hstart : FreshSlot uninit := ⟨rfl, rfl, rfl, rfl, rfl, rfl, rfl⟩
  exact LTS.exec_invariant (fun _ _ _ _ hc hy => FreeIsFresh.step hc hy) events
    (fun _ => ⟨hstart, hstart.popStop⟩) hpopped hrun

/-- A step of thread 9 that is completed, and then reported or not before the session ends. -/
def steppedLife (reported : Bool) : List SlotEvent :=
  [.claim 7#32 ⟨3#32⟩, .call (.setStep 9#32 0x1000#32), .call .stepFinished] ++
    (if reported then [.call .popStepFinished] else []) ++ [.drop]

theorem slotLife_fresh_reported :
    ∃ x, LTS.exec slotStep ⟨false, uninit, Kernel.quiet fun _ _ => none⟩ (steppedLife true) =
      some x ∧ FreeIsFresh x := by
  refine ⟨_, rfl, slotLife_fresh _ (steppedLife true) ?_ _ rfl⟩
  exact .cons rfl trivial (.cons rfl trivial (.cons rfl trivial (.cons rfl trivial
    (.cons rfl rfl trivial))))

/-- **A step that is not reported before the drop** is reported to the next session. -/
theorem slotLife_not_fresh :
    ¬ ∀ (k : Kernel) (events : List SlotEvent) (x : Slot),
      LTS.exec slotStep ⟨false, uninit, k⟩ events = some x → FreeIsFresh x := by
  intro hclaim
  have hfree := hclaim (Kernel.quiet fun _ _ => none) (steppedLife false) _ rfl rfl
  exact absurd (hfree.2 8#32 ⟨4#32⟩) (by decide)

end VitaGdb
