/-
  `gdb/event_loop.rs`: how pending events become stop reports.

  `popStop` is what one turn of `next_event_or_byte` does with the session: the exit flag first,
  then a finished step, then the oldest queued exception; the first that is there is taken and
  reported.  `nextEventOrByte` is the whole turn; where it answers nothing the source waits for
  the event flag and goes round again.
-/
import VitaGdb.Gdb.Target

namespace VitaGdb

/-- The signals that are reported. -/
inductive Signal where
  | SIGINT
  | SIGTRAP
  | SIGSEGV
  | SIGBUS
  | SIGILL
  deriving DecidableEq, Repr

/-- `MultiThreadStopReason<u32>`; a `Tid` is a thread id that is not zero. -/
inductive MultiThreadStopReason where
  | exited (code : U8)
  | signal (signal : Signal)
  | signalWithThread (tid : SceUID) (signal : Signal)
  | hwBreak (tid : SceUID)
  | swBreak (tid : SceUID)
  | watch (tid : SceUID) (kind : WatchKind) (addr : U32)
  deriving DecidableEq, Repr

/-- `Tid::new(tid).unwrap()`. -/
def unwrapTid (tid : SceUID) : Outcome SceError SceUID := if tid = 0#32 then .panic else .ok tid

theorem unwrapTid_ok {tid t : SceUID} (h : unwrapTid tid = .ok t) : t = tid := by
  rw [unwrapTid] at h
  split at h
  · exact absurd h (by simp)
  · exact (Outcome.ok.inj h).symm

/-- The signal of a fault. -/
def signalOf : ExceptionKind → Signal
  | .dabt => .SIGSEGV
  | .pabt => .SIGBUS
  | .undefInstruction => .SIGILL

/-- `stop_reason_from`. -/
def stopReasonFrom : ExceptionEvent → Outcome SceError MultiThreadStopReason
  | .hwBreak tid => do
    let tid ← unwrapTid tid
    return .hwBreak tid
  | .watch tid addr kind => do
    let tid ← unwrapTid tid
    return .watch tid kind addr
  | .swBreak tid => do
    let tid ← unwrapTid tid
    return .swBreak tid
  | .exception tid kind => do
    let tid ← unwrapTid tid
    return .signalWithThread tid (signalOf kind)

namespace GdbSessionInner

/-- What one turn of `next_event_or_byte` takes from the session. -/
def popStop (s : GdbSessionInner) :
    Outcome SceError (Option MultiThreadStopReason) × GdbSessionInner :=
  let (exited, s) := s.popExited
  if exited then (.ok (some (.exited 0#8)), s)
  else
    match s.popStepFinished with
    | (some tid, s) => (unwrapTid tid >>= fun tid => .ok (some (.signalWithThread tid .SIGTRAP)), s)
    | (none, s) =>
      match s.popExcp with
      | (some ev, s) => (stopReasonFrom ev >>= fun reason => .ok (some reason), s)
      | (none, s) => (.ok none, s)

end GdbSessionInner

/-- What a read of the connection gives. -/
inductive ReadResult where
  | byte (byte : U8)
  | closed
  | err (err : SceError)
  | none

inductive Incoming where
  | byte (byte : U8)
  | stop (reason : MultiThreadStopReason)
  | closed

/-- One turn of `next_event_or_byte`; `none` is the wait for `EV_WAKE_WORKER` at its end. -/
def nextEventOrByte (t : VitaTarget) (w : World) (read : ReadResult) :
    Outcome SceError (Option Incoming) × VitaTarget × World :=
  if t.detached then (.ok (some (.stop (.exited 0#8))), { t with detached := false }, w)
  else
    let (stop, w) := match t.session with
      | some i =>
        let (stop, s) := (w.pool i).popStop
        (stop, w.put i s w.kernel)
      | none => (.ok none, w)
    match stop with
    | .ok (some reason) => (.ok (some (.stop reason)), t, w)
    | .err err => (.err err, t, w)
    | .panic => (.panic, t, w)
    | .ok none =>
      match read with
      | .byte byte => (.ok (some (.byte byte)), t, w)
      | .closed => (.ok (some .closed), t, w)
      | .err err => (.err err, t, w)
      | .none => (.ok none, t, w)

/-- `interrupt_target`. -/
def interruptTarget (k : Kernel) (pid : Option SceUID) :
    Outcome SceError MultiThreadStopReason × Kernel :=
  match pid with
  | none => (.ok (.signal .SIGINT), k)
  | some pid =>
    match k.haltProcess pid with
    | (.ok tid, k) => (unwrapTid tid >>= fun tid => .ok (.signalWithThread tid .SIGINT), k)
    | (.error _, k) => (.ok (.signal .SIGINT), k)

/-! ## What is reported -/

namespace GdbSessionInner

variable {s : GdbSessionInner}

/-- The exit flag comes first. -/
theorem popStop_exited (h : s.exited = true) :
    s.popStop = (.ok (some (.exited 0#8)), { s with exited := false }) := by
  simp only [popStop, popExited, h, if_true]

/-- Then a finished step. -/
theorem popStop_stepResult (hexited : s.exited = false) {tid : SceUID}
    (h : s.stepResult = some tid) :
    s.popStop = (unwrapTid tid >>= fun tid => .ok (some (.signalWithThread tid .SIGTRAP)),
      { s with exited := false, stepResult := none }) := by
  simp only [popStop, popExited, popStepFinished, hexited, h, Bool.false_eq_true, if_false]

/-- Then the oldest exception. -/
theorem popStop_exception (hexited : s.exited = false) (hres : s.stepResult = none)
    {ev : ExceptionEvent} {q : List ExceptionEvent} (h : s.exceptions.pending = ev :: q) :
    s.popStop = (stopReasonFrom ev >>= fun reason => .ok (some reason),
      { s with exited := false, stepResult := none, exceptions := s.exceptions.pop.2 }) := by
  have hpop : s.exceptions.pop.1 = some ev := by rw [s.exceptions.pop_pending.1, h, List.head?_cons]
  simp only [popStop, popExited, popStepFinished, popExcp, hexited, hres, hpop, Bool.false_eq_true,
    if_false]

/-- With nothing pending, nothing is reported. -/
theorem popStop_nothing (hexited : s.exited = false) (hres : s.stepResult = none)
    (h : s.exceptions.pending = []) :
    s.popStop = (.ok none,
      { s with exited := false, stepResult := none, exceptions := s.exceptions.pop.2 }) := by
  have hpop : s.exceptions.pop.1 = none := by rw [s.exceptions.pop_pending.1, h, List.head?_nil]
  simp only [popStop, popExited, popStepFinished, popExcp, hexited, hres, hpop, Bool.false_eq_true,
    if_false]

theorem unwrapTid_bind_ne_none (tid : SceUID) (f : SceUID → MultiThreadStopReason) :
    (unwrapTid tid >>= fun tid => .ok (some (f tid))) ≠
      (.ok none : Outcome SceError (Option MultiThreadStopReason)) := by
  rw [unwrapTid]
  split <;> simp

/-- **Nothing is reported** exactly when nothing is pending. -/
theorem popStop_none_iff :
    s.popStop.1 = .ok none ↔
      s.exited = false ∧ s.stepResult = none ∧ s.exceptions.pending = [] := by
  cases hexited : s.exited with
  | true => simp [popStop_exited hexited]
  | false =>
    cases hres : s.stepResult with
    | some tid =>
      rw [popStop_stepResult hexited hres]
      simp [unwrapTid_bind_ne_none]
    | none =>
      cases hq : s.exceptions.pending with
      | nil => simp [popStop_nothing hexited hres hq]
      | cons ev q =>
        rw [popStop_exception hexited hres hq]
        cases ev <;> simp only [stopReasonFrom, unwrapTid] <;> split <;> simp

/-- A report changes the pending events only: what is left was pending before. -/
theorem popStop_frame (s : GdbSessionInner) :
    ∃ r q, s.popStop.2 = { s with exited := false, stepResult := r, exceptions := q } ∧
      (r = s.stepResult ∨ r = none) ∧ (q.pending ≠ [] → s.exceptions.pending ≠ []) := by
  have hpop : s.exceptions.pop.2.pending ≠ [] → s.exceptions.pending ≠ [] := by
    rw [s.exceptions.pop_pending.2]
    exact fun h hnil => h (by rw [hnil, List.tail_nil])
  cases hexited : s.exited with
  | true => exact ⟨s.stepResult, s.exceptions, by rw [popStop_exited hexited], .inl rfl, id⟩
  | false =>
    cases hres : s.stepResult with
    | some tid => exact ⟨none, s.exceptions, by rw [popStop_stepResult hexited hres], .inr rfl, id⟩
    | none =>
      refine ⟨none, s.exceptions.pop.2, ?_, .inr rfl, hpop⟩
      cases hq : s.exceptions.pending with
      | nil => rw [popStop_nothing hexited hres hq]
      | cons ev q => rw [popStop_exception hexited hres hq]

/-- **A reported `SIGTRAP` is a finished step**: no exception is reported with that signal. -/
theorem popStop_sigtrap {tid : SceUID}
    (h : s.popStop.1 = .ok (some (.signalWithThread tid .SIGTRAP))) : s.stepResult = some tid := by
  cases hexited : s.exited with
  | true =>
    rw [popStop_exited hexited] at h
    exact absurd h (by simp)
  | false =>
    cases hres : s.stepResult with
    | some t =>
      rw [popStop_stepResult hexited hres] at h
      obtain ⟨t', ht, hreason⟩ := Outcome.bind_ok h
      obtain ⟨rfl, -⟩ : t' = tid ∧ True := by simpa using hreason
      rw [unwrapTid_ok ht]
    | none =>
      cases hq : s.exceptions.pending with
      | nil =>
        rw [popStop_nothing hexited hres hq] at h
        exact absurd h (by simp)
      | cons ev q =>
        rw [popStop_exception hexited hres hq] at h
        obtain ⟨reason, hev, hreason⟩ := Outcome.bind_ok h
        obtain rfl : reason = .signalWithThread tid .SIGTRAP := by simpa using hreason
        cases ev with
        | hwBreak t => obtain ⟨t', -, he⟩ := Outcome.bind_ok hev; exact absurd he (by simp)
        | swBreak t => obtain ⟨t', -, he⟩ := Outcome.bind_ok hev; exact absurd he (by simp)
        | watch t addr kind => obtain ⟨t', -, he⟩ := Outcome.bind_ok hev; exact absurd he (by simp)
        | «exception» t kind =>
          obtain ⟨t', -, he⟩ := Outcome.bind_ok hev
          cases kind <;> exact absurd he (by simp [signalOf])

end GdbSessionInner

/-- On an attached target a turn of `next_event_or_byte` stops with what `popStop` takes. -/
theorem nextEventOrByte_stop {t : VitaTarget} {w : World} {i : Fin 4} {read : ReadResult}
    {reason : MultiThreadStopReason} (hattached : t.detached = false) (hslot : t.session = some i) :
    (nextEventOrByte t w read).1 = .ok (some (.stop reason)) ↔
      (w.pool i).popStop.1 = .ok (some reason) := by
  simp only [nextEventOrByte, hattached, hslot, Bool.false_eq_true, if_false]
  rcases (w.pool i).popStop.1 with stop | e | _
  · cases stop with
    | none => cases read <;> simp
    | some r => simp
  · simp
  · simp

end VitaGdb
