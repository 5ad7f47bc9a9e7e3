/-
  `gdb/handlers.rs`: what happens when a thread of a debugged process raises an exception.

  A handler runs on the faulting thread.  It looks its session up, decides from the saved context
  what the exception is, halts the thread and its process, and queues what the debugger is to be
  told.  The functions are cut at the halt: `breakHalts`, `watchHalts` and `exceptionHalts` are
  the part before it (`none`: the exception is not the debugger's), `queue` is the part after it,
  and `handleBreak`, `handleWatch` and `handleException` put the two together.  A handler is not
  one step: other threads and the worker run between its halt and its queue, and the cut is where
  they can.

  `queue_cases` says once what the part after the halt can do.
-/
import VitaGdb.Gdb.Pool

namespace VitaGdb

/-- The fields of `SceExcpmgrExceptionContext` the handlers read, and `SPSR`: the saved program
    status, whose bit 5 is the instruction set the exception was taken in.  (No handler reads that
    one.) -/
structure SceExcpmgrExceptionContext where
  addressOfFaultingInstruction : U32
  SPSR : U32
  CPACR : U32
  IFSR : U32
  IFAR : U32
  DFSR : U32
  DFAR : U32

/-- `SceExcpHandlingCode`: the two answers a handler gives. -/
inductive SceExcpHandlingCode where
  | notHandled
  | handlingCode2
  deriving DecidableEq, Repr

/-- `dfsr_is_write`. -/
def dfsrIsWrite (dfsr : U32) : Bool := dfsr &&& (1#32 <<< 11) != 0#32

/-- `fsr_is_debug`: fault status 0b00010. -/
def fsrIsDebug (fsr : U32) : Bool := (((fsr &&& 0x400#32) >>> 6) ||| (fsr &&& 0xF#32)) == 0x2#32

/-- `u32::from_le_bytes` of the four bytes read. -/
def wordOf (insn : List U8) : U32 :=
  insn.foldr (fun b acc => (acc <<< 8) ||| b.setWidth 32) 0#32

/-- `is_bkpt`. -/
def isBkpt (insn : List U8) (thumb : Bool) : Bool :=
  let word := wordOf insn
  if thumb then (word.setWidth 16) &&& 0xff00#16 == 0xbe00#16
  else word &&& 0x0ff000f0#32 == 0x01200070#32

/-- `is_thumb`: the bit is taken from CPACR. -/
def isThumb (ctx : SceExcpmgrExceptionContext) : Bool := (ctx.CPACR >>> 5) &&& 1#32 != 0#32

/-! ## Up to the halt -/

/-- What a handler knows when it halts the process: the bytes at a break, or the event to queue. -/
inductive Halted where
  | brk (faultAddr : U32) (insn : List U8) (thumb : Bool)
  | event (event : ExceptionEvent)

/-- `handle_break`, up to the halt. -/
def breakHalts (k : Kernel) (pid : SceUID) (context : SceExcpmgrExceptionContext) : Option Halted :=
  match k.ksceKernelCopyFromUserProc pid context.addressOfFaultingInstruction 4 with
  | .error _ => none
  | .ok insn => some (.brk context.addressOfFaultingInstruction insn (isThumb context))

/-- `handle_watch`, up to the halt. -/
def watchHalts (s : GdbSessionInner) (tid : SceUID) (context : SceExcpmgrExceptionContext) :
    Option Halted :=
  if s.hasWatchpoint context.DFAR then
    some (.event (.watch tid context.DFAR (if dfsrIsWrite context.DFSR then .write else .read)))
  else none

/-- `handle_exception`, up to the halt. -/
def exceptionHalts (tid : SceUID) (kind : ExceptionKind) : Option Halted :=
  some (.event (.exception tid kind))

/-- The exception vectors the handlers are registered for. -/
inductive ExcpVector where
  | pabt
  | dabt
  | undefInstruction
  deriving DecidableEq, Repr

/-- `handle_prefetch_abort`, `handle_data_abort` and `handle_undef`, up to the halt. -/
def vectorHalts (vector : ExcpVector) (s : GdbSessionInner) (k : Kernel) (pid tid : SceUID)
    (context : SceExcpmgrExceptionContext) : Option Halted :=
  match vector with
  | .pabt => if fsrIsDebug context.IFSR then breakHalts k pid context else exceptionHalts tid .pabt
  | .dabt => if fsrIsDebug context.DFSR then watchHalts s tid context else exceptionHalts tid .dabt
  | .undefInstruction => exceptionHalts tid .undefInstruction

/-! ## After the halt -/

namespace GdbSessionInner

/-- The part of a handler after `halt_for_debug`. -/
def queue (s : GdbSessionInner) (k : Kernel) (tid : SceUID) (halted : Halted) :
    Outcome SceError Unit × GdbSessionInner × Kernel :=
  match halted with
  | .brk faultAddr insn thumb =>
    if s.isStep faultAddr then s.stepFinished k
    else if isBkpt insn thumb then
      let (s, k) := s.pushExcp k (.swBreak tid)
      (.ok (), s, k)
    else
      let (s, k) := s.pushExcp k (.hwBreak tid)
      (.ok (), s, k)
  | .event event =>
    let (s, k) := s.pushExcp k event
    (.ok (), s, k)

/-- The event a halted handler queues when it does not complete a step. -/
def queuedEvent (tid : SceUID) : Halted → ExceptionEvent
  | .brk _ insn thumb => if isBkpt insn thumb then .swBreak tid else .hwBreak tid
  | .event event => event

/-- A halted handler that is a break at the recorded step address. -/
def completes (s : GdbSessionInner) : Halted → Bool
  | .brk faultAddr _ _ => s.isStep faultAddr
  | .event _ => false

theorem isStep_iff {s : GdbSessionInner} {addr : U32} :
    s.isStep addr = true ↔ ∃ tid, s.step = some (tid, addr) := by
  rw [isStep]
  cases s.step with
  | none => simp
  | some step => simp [Prod.ext_iff]

/-- **What a handler can do after its halt**: complete the recorded step, or queue its event. -/
theorem queue_cases (s : GdbSessionInner) (k : Kernel) (tid : SceUID) (halted : Halted) :
    (∃ stepTid addr insn thumb, s.step = some (stepTid, addr) ∧ halted = .brk addr insn thumb ∧
      s.queue k tid halted = s.stepFinished k) ∨
    s.completes halted = false ∧
      (s.queue k tid halted).2 = s.pushExcp k (queuedEvent tid halted) := by
  cases halted with
  | event event => exact .inr ⟨rfl, rfl⟩
  | brk addr insn thumb =>
    cases hstep : s.isStep addr with
    | true =>
      obtain ⟨stepTid, hrecorded⟩ := isStep_iff.mp hstep
      exact .inl ⟨stepTid, addr, insn, thumb, hrecorded, rfl, by simp only [queue, hstep, if_true]⟩
    | false =>
      refine .inr ⟨hstep, ?_⟩
      simp only [queue, hstep, Bool.false_eq_true, if_false, queuedEvent]
      split <;> rfl

end GdbSessionInner

/-- A handler once its session is found: not handled, or halt and queue. -/
def runHandler (w : World) (i : Fin 4) (pid tid : SceUID) (halts : Option Halted) :
    Outcome SceError SceExcpHandlingCode × World :=
  match halts with
  | none => (.ok .notHandled, w)
  | some halted =>
    let (res, s, k) := (w.pool i).queue (w.kernel.haltForDebug pid tid) tid halted
    (res >>= fun _ => .ok .handlingCode2, w.put i s k)

/-- `handle_break`. -/
def handleBreak (w : World) (pid tid : SceUID) (context : SceExcpmgrExceptionContext) :
    Outcome SceError SceExcpHandlingCode × World :=
  match findSessionForPid w.pool pid with
  | none => (.ok .notHandled, w)
  | some i => runHandler w i pid tid (breakHalts w.kernel pid context)

/-- `handle_watch`. -/
def handleWatch (w : World) (pid tid : SceUID) (context : SceExcpmgrExceptionContext) :
    Outcome SceError SceExcpHandlingCode × World :=
  match findSessionForPid w.pool pid with
  | none => (.ok .notHandled, w)
  | some i => runHandler w i pid tid (watchHalts (w.pool i) tid context)

/-- `handle_exception`. -/
def handleException (w : World) (pid tid : SceUID) (kind : ExceptionKind) :
    Outcome SceError SceExcpHandlingCode × World :=
  match findSessionForPid w.pool pid with
  | none => (.ok .notHandled, w)
  | some i => runHandler w i pid tid (exceptionHalts tid kind)

/-- `handle_prefetch_abort`. -/
def handlePrefetchAbort (w : World) (pid tid : SceUID) (context : SceExcpmgrExceptionContext) :
    Outcome SceError SceExcpHandlingCode × World :=
  if fsrIsDebug context.IFSR then handleBreak w pid tid context
  else handleException w pid tid .pabt

/-- `handle_data_abort`. -/
def handleDataAbort (w : World) (pid tid : SceUID) (context : SceExcpmgrExceptionContext) :
    Outcome SceError SceExcpHandlingCode × World :=
  if fsrIsDebug context.DFSR then handleWatch w pid tid context
  else handleException w pid tid .dabt

/-- `handle_undef`. -/
def handleUndef (w : World) (pid tid : SceUID) : Outcome SceError SceExcpHandlingCode × World :=
  handleException w pid tid .undefInstruction

/-- `handle_proc_kill`. -/
def handleProcKill (w : World) (pid : SceUID) : World :=
  match findSessionForPid w.pool pid with
  | none => w
  | some i =>
    let (s, k) := (w.pool i).pushExited w.kernel
    w.put i s k

/-- `handle_proc_create`. -/
def handleProcCreate (w : World) (pid : SceUID) : World :=
  match findSessionForPid w.pool pid with
  | none => w
  | some i =>
    match (w.pool i).evflag with
    | none => w
    | some evflag => { w with kernel := (evflag.set w.kernel evProcessStarted).2 }

/-- The handler of a vector is its part up to the halt, run on the session of the process. -/
theorem handler_eq_runHandler (w : World) (pid tid : SceUID) (context : SceExcpmgrExceptionContext)
    {i : Fin 4} (hi : findSessionForPid w.pool pid = some i) :
    handlePrefetchAbort w pid tid context =
        runHandler w i pid tid (vectorHalts .pabt (w.pool i) w.kernel pid tid context) ∧
      handleDataAbort w pid tid context =
        runHandler w i pid tid (vectorHalts .dabt (w.pool i) w.kernel pid tid context) ∧
      handleUndef w pid tid =
        runHandler w i pid tid
          (vectorHalts .undefInstruction (w.pool i) w.kernel pid tid context) := by
  refine ⟨?_, ?_, ?_⟩
  · simp only [handlePrefetchAbort, handleBreak, handleException, hi, vectorHalts]
    split <;> rfl
  · simp only [handleDataAbort, handleWatch, handleException, hi, vectorHalts]
    split <;> rfl
  · simp only [handleUndef, handleException, hi, vectorHalts]

end VitaGdb
