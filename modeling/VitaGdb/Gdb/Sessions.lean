/-
  `gdb/sessions.rs`: the state of one debug session and its operations.

  A session lives in a slot of a static pool and is shared between the gdb worker and the exception
  handlers; every table is behind its own lock, so each function below is one locked section or a
  short sequence of them.  The functions take the session and the kernel and return their result
  with both; console output is left out.

  What a call can do is stated once, in `SessionSpecs`; no later proof unfolds these functions.
-/
import VitaGdb.Kernel.Mpsc
import VitaGdb.Kernel.Calls

namespace VitaGdb

open SlotTable (Table)

/-! ## The data of a session -/

/-- `gdbstub_arch::arm::ArmBreakpointKind`. -/
inductive ArmBreakpointKind where
  | thumb16
  | thumb32
  | arm32
  deriving DecidableEq, Repr

/-- `gdbstub`'s `WatchKind`. -/
inductive WatchKind where
  | write
  | read
  | readWrite
  deriving DecidableEq, Repr

inductive ExceptionKind where
  | dabt
  | pabt
  | undefInstruction
  deriving DecidableEq, Repr

inductive ExceptionEvent where
  | hwBreak (tid : SceUID)
  | swBreak (tid : SceUID)
  | watch (tid : SceUID) (addr : U32) (kind : WatchKind)
  | exception (tid : SceUID) (kind : ExceptionKind)
  deriving DecidableEq, Repr

structure HwWatchpoint where
  addr : U32
  kind : WatchKind
  deriving DecidableEq, Repr

structure HwBreakpoint where
  addr : U32
  deriving DecidableEq, Repr

/-- A planted software breakpoint: `orig` is the source's `[u8; 4]`, of which `patchLen` bytes were
    replaced by the trap.  `set_sw_breakpoint` is the only maker of one, so the length is that of
    one of the two traps; it keeps the slice `orig[0..patch_len]` from panicking. -/
structure SwBreakpoint where
  addr : U32
  orig : List U8
  patchLen : Nat
  orig_length : orig.length = 4
  patchLen_eq : patchLen = 2 ∨ patchLen = 4
  deriving DecidableEq, Repr

/-- `PID_UNUSED`: -1. -/
def pidUnused : SceUID := 0xFFFFFFFF#32

/-- `EV_WAKE_WORKER`. -/
def evWakeWorker : U32 := 1#32 <<< 0

/-- `EV_PROCESS_STARTED`. -/
def evProcessStarted : U32 := 1#32 <<< 4

/-- `GdbSessionInner`: one slot of the session pool. -/
structure GdbSessionInner where
  pid : SceUID
  evflag : Option EventFlagRef
  hwBreakpoints : Table 6 HwBreakpoint
  hwWatchpoints : Table 3 HwWatchpoint
  swBreakpoints : Table 16 SwBreakpoint
  step : Option (SceUID × U32)
  stepResult : Option SceUID
  exited : Bool
  exceptions : MpscRing ExceptionEvent 8

/-- `bp_control`. -/
def bpControl : U32 :=
  (1#32 <<< 0) ||| (0x3#32 <<< 1) ||| (0xF#32 <<< 5) ||| (0x1#32 <<< 14) ||| (0x0#32 <<< 20)

/-- `wp_control`. -/
def wpControl (kind : WatchKind) : U32 :=
  let lsc : U32 := match kind with
    | .read => 0b01#32
    | .write => 0b10#32
    | .readWrite => 0b11#32
  1#32 ||| (1#32 <<< 1) ||| (lsc <<< 3) ||| (0xF#32 <<< 5) ||| (0x1#32 <<< 14) ||| (0#32 <<< 20) |||
    (0#32 <<< 24)

/-- `is_shared_address`: the shared libraries. -/
def isSharedAddress (addr : U32) : Bool := 0xE0000000#32 ≤ addr && addr < 0xF0000000#32

/-- The number of bytes a breakpoint of this kind replaces (`patch_len`). -/
def patchLen : ArmBreakpointKind → Nat
  | .thumb16 => 2
  | _ => 4

/-- The trap a breakpoint of this kind plants (`patched`): `bkpt #0`. -/
def patched : ArmBreakpointKind → List U8
  | .thumb16 => [0x00#8, 0xbe#8]
  | _ => [0x70#8, 0x00#8, 0x20#8, 0xE1#8]

namespace SwBreakpoint

/-- The slot `set_sw_breakpoint` fills: the bytes copied into the front of `[0u8; 4]`. -/
def found (addr : U32) (bytes : List U8) (kind : ArmBreakpointKind) : SwBreakpoint where
  addr := addr
  orig := (bytes ++ List.replicate 4 0#8).take 4
  patchLen := VitaGdb.patchLen kind
  orig_length := by simp
  patchLen_eq := by cases kind <;> decide

/-- `orig[0..patch_len]`. -/
def saved (b : SwBreakpoint) : List U8 := b.orig.take b.patchLen

end SwBreakpoint

namespace GdbSessionInner

/-- `uninit`. -/
def uninit : GdbSessionInner where
  pid := pidUnused
  evflag := none
  hwBreakpoints := SlotTable.empty
  hwWatchpoints := SlotTable.empty
  swBreakpoints := SlotTable.empty
  step := none
  stepResult := none
  exited := false
  exceptions := MpscRing.new

/-- `reset`. -/
def reset (s : GdbSessionInner) (k : Kernel) : GdbSessionInner × Kernel :=
  let k := match s.evflag with
    | some evflag => (evflag.clear k evWakeWorker).2
    | none => k
  ({ s with
      evflag := none
      hwBreakpoints := SlotTable.empty
      hwWatchpoints := SlotTable.empty
      swBreakpoints := SlotTable.empty
      step := none
      exited := false
      exceptions := s.exceptions.clear.2
      pid := pidUnused }, k)

/-- `pid`. -/
def getPid (s : GdbSessionInner) : Option SceUID := if s.pid = pidUnused then none else some s.pid

/-! ## Pending events -/

/-- `push_excp`: without an event flag the event is dropped; a full ring drops it too. -/
def pushExcp (s : GdbSessionInner) (k : Kernel) (event : ExceptionEvent) :
    GdbSessionInner × Kernel :=
  match s.evflag with
  | none => (s, k)
  | some evflag =>
    ({ s with exceptions := (s.exceptions.push event).2 }, (evflag.set k evWakeWorker).2)

/-- `pop_excp`. -/
def popExcp (s : GdbSessionInner) : Option ExceptionEvent × GdbSessionInner :=
  (s.exceptions.pop.1, { s with exceptions := s.exceptions.pop.2 })

/-- `has_excp`. -/
def hasExcp (s : GdbSessionInner) : Bool := 0#32 < s.exceptions.len

/-- `push_exited`. -/
def pushExited (s : GdbSessionInner) (k : Kernel) : GdbSessionInner × Kernel :=
  match s.evflag with
  | none => (s, k)
  | some evflag => ({ s with exited := true }, (evflag.set k evWakeWorker).2)

/-- `pop_exited`. -/
def popExited (s : GdbSessionInner) : Bool × GdbSessionInner :=
  (s.exited, { s with exited := false })

/-! ## Software breakpoints -/

/-- `restore_sw_slot`: the slot is taken before its bytes are written back. -/
def restoreSwSlot (k : Kernel) (pid : SceUID) (slot : Option SwBreakpoint) :
    Except SceError Unit × Option SwBreakpoint × Kernel :=
  match slot with
  | none => (.ok (), none, k)
  | some b =>
    let (res, k) := k.writeUserText pid b.addr b.saved
    (res, none, k)

/-- `set_sw_breakpoint`: copy the bytes at `addr`, claim a slot for them under the lock, write the
    trap; a failed write releases the claimed slot. -/
def setSwBreakpoint (s : GdbSessionInner) (k : Kernel) (addr : U32) (kind : ArmBreakpointKind) :
    Bool × GdbSessionInner × Kernel :=
  match s.getPid with
  | none => (false, s, k)
  | some pid =>
    if isSharedAddress addr then (false, s, k)
    else
      match k.ksceKernelCopyFromUserProc pid addr (patchLen kind) with
      | .error _ => (false, s, k)
      | .ok orig =>
        match SlotTable.findSlot (fun b => b.addr = addr) s.swBreakpoints with
        | some _ => (true, s, k)
        | none =>
          match SlotTable.freeSlot s.swBreakpoints with
          | none => (false, s, k)
          | some claimed =>
            let sw := Function.update s.swBreakpoints claimed
              (some (SwBreakpoint.found addr orig kind))
            match k.writeUserText pid addr (patched kind) with
            | (.ok _, k) => (true, { s with swBreakpoints := sw }, k)
            | (.error _, k) =>
              (false, { s with swBreakpoints := Function.update sw claimed none }, k)

/-- `clear_sw_breakpoint`. -/
def clearSwBreakpoint (s : GdbSessionInner) (k : Kernel) (addr : U32) :
    Bool × GdbSessionInner × Kernel :=
  match s.getPid with
  | none => (false, s, k)
  | some pid =>
    match SlotTable.findSlot (fun b => b.addr = addr) s.swBreakpoints with
    | none => (false, s, k)
    | some (idx, b) =>
      match restoreSwSlot k pid (some b) with
      | (.error _, slot, k) =>
        (false, { s with swBreakpoints := Function.update s.swBreakpoints idx slot }, k)
      | (.ok _, _, k) =>
        (true, { s with swBreakpoints := Function.update s.swBreakpoints idx none }, k)

/-! ## Single steps -/

/-- `set_step`. -/
def setStep (s : GdbSessionInner) (tid : SceUID) (addr : U32) : GdbSessionInner :=
  { s with step := some (tid, addr) }

/-- `is_step`: the thread of the recorded step is not looked at. -/
def isStep (s : GdbSessionInner) (addr : U32) : Bool :=
  match s.step with
  | none => false
  | some (_, stepAddr) => stepAddr = addr

/-- `step_finished`. -/
def stepFinished (s : GdbSessionInner) (k : Kernel) :
    Outcome SceError Unit × GdbSessionInner × Kernel :=
  match s.step with
  | none => (.ok (), s, k)
  | some (stepTid, stepAddr) =>
    let (_, s, k) := clearSwBreakpoint { s with step := none } k stepAddr
    let s := { s with stepResult := some stepTid }
    match s.evflag with
    | none => (.panic, s, k)
    | some evflag => (.ok (), s, (evflag.set k evWakeWorker).2)

/-- `pop_step_finished`. -/
def popStepFinished (s : GdbSessionInner) : Option SceUID × GdbSessionInner :=
  (s.stepResult, { s with stepResult := none })

/-! ## Hardware breakpoints and watchpoints -/

/-- `has_watchpoint`. -/
def hasWatchpoint (s : GdbSessionInner) (addr : U32) : Bool :=
  (SlotTable.findSlot (fun wp => wp.addr = addr) s.hwWatchpoints).isSome

/-- `set_hw_watchpoint`: the first loop stops at the first occupied slot, whatever its address. -/
def setHwWatchpoint (s : GdbSessionInner) (k : Kernel) (addr : U32) (_len : U32)
    (kind : WatchKind) : Outcome SceError Bool × GdbSessionInner × Kernel :=
  if !k.isDebugEnabled then (.ok false, s, k)
  else
    match s.getPid with
    | none => (.panic, s, k)
    | some pid =>
      match SlotTable.findSlot (fun _ => true) s.hwWatchpoints with
      | some (idx, slot) =>
        if slot.kind = kind then (.ok true, s, k)
        else
          match k.sceKernelSetPHWP pid idx addr (wpControl kind) with
          | (.error err, k) => (.err err, s, k)
          | (.ok _, k) =>
            (.ok true, { s with
              hwWatchpoints :=
                Function.update s.hwWatchpoints idx (some { slot with kind := kind }) }, k)
      | none =>
        match SlotTable.freeSlot s.hwWatchpoints with
        | none => (.ok false, s, k)
        | some idx =>
          match k.sceKernelSetPHWP pid idx addr (wpControl kind) with
          | (.error err, k) => (.err err, s, k)
          | (.ok _, k) =>
            (.ok true, { s with
              hwWatchpoints := Function.update s.hwWatchpoints idx (some ⟨addr, kind⟩) }, k)

/-- `clear_hw_watchpoint`. -/
def clearHwWatchpoint (s : GdbSessionInner) (k : Kernel) (addr : U32) :
    Outcome SceError Bool × GdbSessionInner × Kernel :=
  if !k.isDebugEnabled then (.ok false, s, k)
  else
    match s.getPid with
    | none => (.panic, s, k)
    | some pid =>
      match SlotTable.findSlot (fun wp => wp.addr = addr) s.hwWatchpoints with
      | none => (.ok false, s, k)
      | some (idx, _) =>
        match k.sceKernelSetPHWP pid idx 0#32 0#32 with
        | (.error err, k) => (.err err, s, k)
        | (.ok _, k) =>
          (.ok true, { s with hwWatchpoints := Function.update s.hwWatchpoints idx none }, k)

/-- `set_hw_breakpoint`. -/
def setHwBreakpoint (s : GdbSessionInner) (k : Kernel) (addr : U32) :
    Outcome SceError Bool × GdbSessionInner × Kernel :=
  if !k.isDebugEnabled then (.ok false, s, k)
  else
    match s.getPid with
    | none => (.panic, s, k)
    | some pid =>
      match SlotTable.findSlot (fun bp => bp.addr = addr) s.hwBreakpoints with
      | some _ => (.ok true, s, k)
      | none =>
        match SlotTable.freeSlot s.hwBreakpoints with
        | none => (.ok false, s, k)
        | some idx =>
          match k.sceKernelSetPHBP pid idx addr bpControl with
          | (.error err, k) => (.err err, s, k)
          | (.ok _, k) =>
            (.ok true, { s with
              hwBreakpoints := Function.update s.hwBreakpoints idx (some ⟨addr⟩) }, k)

/-- `clear_hw_breakpoint`. -/
def clearHwBreakpoint (s : GdbSessionInner) (k : Kernel) (addr : U32) :
    Outcome SceError Bool × GdbSessionInner × Kernel :=
  if !k.isDebugEnabled then (.ok false, s, k)
  else
    match s.getPid with
    | none => (.panic, s, k)
    | some pid =>
      match SlotTable.findSlot (fun bp => bp.addr = addr) s.hwBreakpoints with
      | none => (.ok false, s, k)
      | some (idx, _) =>
        match k.sceKernelSetPHBP pid idx 0#32 0#32 with
        | (.error err, k) => (.err err, s, k)
        | (.ok _, k) =>
          (.ok true, { s with hwBreakpoints := Function.update s.hwBreakpoints idx none }, k)

/-! ## The end of a session -/

/-- `clear_all`: every register and patch is undone whatever the calls return; the watchpoint slots
    keep their entries. -/
def clearAll (s : GdbSessionInner) (k : Kernel) : GdbSessionInner × Kernel :=
  let (bps, k) := SlotTable.drain (fun k idx _ => (k.sceKernelSetPHBP s.pid idx 0#32 0#32).2)
    s.hwBreakpoints k
  let k := (SlotTable.drain (fun k idx _ => (k.sceKernelSetPHWP s.pid idx 0#32 0#32).2)
    s.hwWatchpoints k).2
  let (sws, k) := SlotTable.drain (fun k _ b => (restoreSwSlot k s.pid (some b)).2.2)
    s.swBreakpoints k
  ({ s with hwBreakpoints := bps, swBreakpoints := sws }, k)

/-- `Drop for GdbSession`. -/
def drop (s : GdbSessionInner) (k : Kernel) : GdbSessionInner × Kernel :=
  let (s, k) := s.clearAll k
  s.reset k

end GdbSessionInner

end VitaGdb
