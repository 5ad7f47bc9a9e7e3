/-
  `gdb/target.rs`: what gdb is told about hardware breakpoints and watchpoints.

  The session answers with an error, with true where it did what was asked, and with false where it
  did not.  The target keeps the error apart and drops the rest: a refusal is told to gdb as done
  (`replyOf`), where `add_sw_breakpoint` beside it hands the answer on.  `ReplyHeld` is where that
  does not show: the kernel call of the request is made, or the registers are as asked already.
-/
import VitaGdb.Gdb.BreakRegisters
import VitaGdb.Gdb.WatchRegisters
import VitaGdb.Gdb.Target

namespace VitaGdb

open GdbSessionInner

/-! ## The four requests -/

/-- The reply to gdb for an answer of the session. -/
def replyOf : Outcome SceError Bool → Outcome SceError Bool
  | .ok _ => .ok true
  | .err _ => .ok false
  | .panic => .panic

namespace VitaTarget

/-- A call of the session of the target and its reply. -/
def hwCall (t : VitaTarget) (w : World)
    (call : GdbSessionInner → Kernel → Outcome SceError Bool × GdbSessionInner × Kernel) :
    Outcome SceError Bool × World :=
  match t.session with
  | none => (.ok false, w)
  | some i =>
    let (res, s, k) := call (w.pool i) w.kernel
    (replyOf res, w.put i s k)

/-- `add_hw_breakpoint`. -/
def addHwBreakpoint (t : VitaTarget) (w : World) (addr : U32) : Outcome SceError Bool × World :=
  t.hwCall w fun s k => s.setHwBreakpoint k addr

/-- `remove_hw_breakpoint`. -/
def removeHwBreakpoint (t : VitaTarget) (w : World) (addr : U32) : Outcome SceError Bool × World :=
  t.hwCall w fun s k => s.clearHwBreakpoint k addr

/-- `add_hw_watchpoint`. -/
def addHwWatchpoint (t : VitaTarget) (w : World) (addr len : U32) (kind : WatchKind) :
    Outcome SceError Bool × World :=
  t.hwCall w fun s k => s.setHwWatchpoint k addr len kind

/-- `remove_hw_watchpoint`. -/
def removeHwWatchpoint (t : VitaTarget) (w : World) (addr : U32) : Outcome SceError Bool × World :=
  t.hwCall w fun s k => s.clearHwWatchpoint k addr

end VitaTarget

inductive HwRequest where
  | addBreakpoint (addr : U32)
  | removeBreakpoint (addr : U32)
  | addWatchpoint (addr len : U32) (kind : WatchKind)
  | removeWatchpoint (addr : U32)

/-- The call of the session a request comes to. -/
def HwRequest.call (s : GdbSessionInner) (k : Kernel) :
    HwRequest → Outcome SceError Bool × GdbSessionInner × Kernel
  | .addBreakpoint addr => s.setHwBreakpoint k addr
  | .removeBreakpoint addr => s.clearHwBreakpoint k addr
  | .addWatchpoint addr len kind => s.setHwWatchpoint k addr len kind
  | .removeWatchpoint addr => s.clearHwWatchpoint k addr

/-- The reply to a request. -/
def VitaTarget.hwRequest (t : VitaTarget) (w : World) : HwRequest → Outcome SceError Bool × World
  | .addBreakpoint addr => t.addHwBreakpoint w addr
  | .removeBreakpoint addr => t.removeHwBreakpoint w addr
  | .addWatchpoint addr len kind => t.addHwWatchpoint w addr len kind
  | .removeWatchpoint addr => t.removeHwWatchpoint w addr

theorem hwRequest_eq (t : VitaTarget) (w : World) (request : HwRequest) :
    t.hwRequest w request = t.hwCall w fun s k => request.call s k := by
  cases request <;> rfl

/-! ## Truthful replies -/

/-- What a reply of true says, of the registers before the call and after it: an added address is
    armed after it, a removed one was armed and its register is off. -/
def HwRequest.Done (x y : GdbSessionInner × Kernel) : HwRequest → Prop
  | .addBreakpoint addr => BreakArmed y addr
  | .removeBreakpoint addr => ∃ i, x.2.phbp x.1.pid i = breakRegister ⟨addr⟩ ∧
      y.2.phbp x.1.pid i = (0#32, 0#32)
  | .addWatchpoint addr _ _ => Armed y addr
  | .removeWatchpoint addr => ∃ i kind, x.2.phwp x.1.pid i = watchRegister ⟨addr, kind⟩ ∧
      y.2.phwp x.1.pid i = (0#32, 0#32)

/-- A reply of true is true of the registers of the session's process. -/
def ReplyTruthful (t : VitaTarget) (w : World) (request : HwRequest) : Prop :=
  (t.hwRequest w request).1 = .ok true → ∃ i, t.session = some i ∧
    request.Done (w.pool i, w.kernel) ((t.hwRequest w request).2.pool i,
      (t.hwRequest w request).2.kernel)

/-- The request is answered by a kernel call for the address, or the registers are as asked. -/
def HwRequest.Held (s : GdbSessionInner) (k : Kernel) : HwRequest → Prop
  | .addBreakpoint addr => BreakArmed (s, k) addr ∨ k.isDebugEnabled = true ∧
      (s.getPid = none ∨ ¬ s.HasBreak addr ∧ ∃ i, s.hwBreakpoints i = none)
  | .removeBreakpoint addr => k.isDebugEnabled = true ∧ (s.getPid = none ∨
      ∃ i bp, SlotTable.findSlot (fun bp => bp.addr = addr) s.hwBreakpoints = some (i, bp) ∧
        (registerFails k 0 = true ∨ k.phbp s.pid i = breakRegister ⟨addr⟩))
  | .addWatchpoint addr _ kind => Armed (s, k) addr ∨ k.isDebugEnabled = true ∧
      (s.getPid = none ∨ ∀ i wp, SlotTable.findSlot (fun _ => true) s.hwWatchpoints = some (i, wp) →
        wp.kind ≠ kind)
  | .removeWatchpoint addr => k.isDebugEnabled = true ∧ (s.getPid = none ∨
      ∃ i wp, SlotTable.findSlot (fun wp => wp.addr = addr) s.hwWatchpoints = some (i, wp) ∧
        (registerFails k 0 = true ∨ ∃ kind, k.phwp s.pid i = watchRegister ⟨addr, kind⟩))

/-- Without a session nothing is said. -/
def ReplyHeld (t : VitaTarget) (w : World) (request : HwRequest) : Prop :=
  ∀ i, t.session = some i → request.Held (w.pool i) w.kernel

variable {s : GdbSessionInner} {k : Kernel}

/-- A call is replied true unless it fails. -/
theorem replyOf_true {res : Outcome SceError Bool} : replyOf res = .ok true ↔ ∃ b, res = .ok b := by
  cases res with
  | ok b => exact iff_of_true rfl ⟨b, rfl⟩
  | err e => simp [replyOf]
  | panic => simp [replyOf]

/-- With debug disabled every request is refused; without a process each one panics. -/
theorem HwRequest.call_disabled (h : k.isDebugEnabled = false) (request : HwRequest) :
    request.call s k = (.ok false, s, k) := by
  cases request <;>
    simp [call, setHwBreakpoint, clearHwBreakpoint, setHwWatchpoint, clearHwWatchpoint, h]

theorem HwRequest.call_detached (h : k.isDebugEnabled = true) (hpid : s.getPid = none)
    (request : HwRequest) : request.call s k = (.panic, s, k) := by
  cases request <;>
    simp [call, setHwBreakpoint, clearHwBreakpoint, setHwWatchpoint, clearHwWatchpoint, h, hpid]

/-! ## Released registers -/

/-- Switching one register off releases what it held, and no other. -/
theorem released_iff {n : Nat} (armed : U32 × U32 → Prop) (hoff : ¬ armed (0#32, 0#32))
    (regs : Fin n → U32 × U32) (i : Fin n) :
    (∃ j, armed (regs j) ∧ Function.update regs i (0#32, 0#32) j = (0#32, 0#32)) ↔
      armed (regs i) := by
  constructor
  · rintro ⟨j, harmed, hj⟩
    by_cases hij : j = i
    · exact hij ▸ harmed
    · rw [Function.update_of_ne hij] at hj
      exact absurd (hj ▸ harmed) hoff
  · intro harmed
    exact ⟨i, harmed, Function.update_self _ _ _⟩

/-- Where nothing changes, nothing is released. -/
theorem not_released {n : Nat} (armed : U32 × U32 → Prop) (hoff : ¬ armed (0#32, 0#32))
    (regs : Fin n → U32 × U32) : ¬ ∃ j, armed (regs j) ∧ regs j = (0#32, 0#32) := by
  rintro ⟨j, harmed, hj⟩
  exact hoff (hj ▸ harmed)

/-- What a watchpoint register holds that is armed for the address. -/
def WatchArmed (addr : U32) (x : U32 × U32) : Prop := ∃ kind, x = watchRegister ⟨addr, kind⟩

theorem not_breakRegister_off (addr : U32) : ¬ (0#32, 0#32) = breakRegister ⟨addr⟩ := fun h =>
  breakRegister_ne_off _ h.symm

theorem not_watchArmed_off (addr : U32) : ¬ WatchArmed addr (0#32, 0#32) := by
  rintro ⟨kind, h⟩
  exact watchRegister_ne_off _ h.symm

/-- A watchpoint is released by a register that was armed for its address. -/
theorem removeWatchpoint_done_iff (x y : GdbSessionInner × Kernel) (addr : U32) :
    (HwRequest.removeWatchpoint addr).Done x y ↔
      ∃ i, WatchArmed addr (x.2.phwp x.1.pid i) ∧ y.2.phwp x.1.pid i = (0#32, 0#32) := by
  simp only [HwRequest.Done, WatchArmed, exists_and_right]

/-! ## Each request with a process -/

section Attached

variable {pid : SceUID} (hdebug : k.isDebugEnabled = true) (hpid : s.getPid = some pid)

include hdebug hpid

theorem addBreakpoint_iff (addr : U32) :
    ((∃ b, (s.setHwBreakpoint k addr).1 = .ok b) →
      BreakArmed (s.setHwBreakpoint k addr).2 addr) ↔
      (HwRequest.addBreakpoint addr).Held s k := by
  have hheld : (HwRequest.addBreakpoint addr).Held s k ↔
      BreakArmed (s, k) addr ∨ ¬ s.HasBreak addr ∧ ∃ i, s.hwBreakpoints i = none := by
    simp [HwRequest.Held, hdebug, hpid]
  obtain ⟨-, rfl⟩ := getPid_eq_some.mp hpid
  rw [hheld]
  rcases setHwBreakpoint_cases hdebug hpid addr with ⟨hhas, heq⟩ | ⟨hno, hfull, heq⟩ |
    ⟨i, hno, hi, -, ⟨-, err, heq⟩ | ⟨-, heq⟩⟩ <;> rw [heq]
  · exact ⟨fun h => .inl (h ⟨true, rfl⟩), fun h _ => h.resolve_right fun hno => hno.1 hhas⟩
  · refine ⟨fun h => .inl (h ⟨false, rfl⟩), fun h _ => h.resolve_right ?_⟩
    rintro ⟨-, i, hi⟩
    exact hfull i hi
  · exact iff_of_true (fun h => absurd h (by simp)) (.inr ⟨hno, i, hi⟩)
  · refine iff_of_true (fun _ => ⟨i, ?_⟩) (.inr ⟨hno, i, hi⟩)
    show (k.withPHBP s.pid i _).phbp s.pid i = _
    rw [Kernel.withPHBP_phbp, Function.update_self]
    rfl

theorem removeBreakpoint_iff (addr : U32) :
    ((∃ b, (s.clearHwBreakpoint k addr).1 = .ok b) →
      (HwRequest.removeBreakpoint addr).Done (s, k) (s.clearHwBreakpoint k addr).2) ↔
      (HwRequest.removeBreakpoint addr).Held s k := by
  have hheld : (HwRequest.removeBreakpoint addr).Held s k ↔
      ∃ i bp, SlotTable.findSlot (fun bp => bp.addr = addr) s.hwBreakpoints = some (i, bp) ∧
        (registerFails k 0 = true ∨ k.phbp s.pid i = breakRegister ⟨addr⟩) := by
    simp [HwRequest.Held, hdebug, hpid]
  have hoff := not_breakRegister_off addr
  obtain ⟨-, rfl⟩ := getPid_eq_some.mp hpid
  rw [hheld]
  rcases clearHwBreakpoint_cases hdebug hpid addr with ⟨hno, heq⟩ |
    ⟨i, bp, hfind, -, -, ⟨hfails, err, heq⟩ | ⟨hgoes, heq⟩⟩ <;> rw [heq]
  · have hnone := not_released (· = breakRegister ⟨addr⟩) hoff (k.phbp s.pid)
    refine iff_of_false (fun h => hnone (h ⟨false, rfl⟩)) ?_
    rintro ⟨i, bp, hfind, -⟩
    rw [not_hasBreak_iff.mp hno] at hfind
    exact absurd hfind (by simp)
  · exact iff_of_true (fun h => absurd h (by simp)) ⟨i, bp, hfind, .inl hfails⟩
  · have hdone := released_iff (· = breakRegister ⟨addr⟩) hoff (k.phbp s.pid) i
    rw [← Kernel.withPHBP_phbp] at hdone
    have hnofail : registerFails k 0 = false := hgoes
    rw [imp_iff_right ⟨true, rfl⟩]
    refine Iff.trans hdone ?_
    simp [hfind, hnofail]

/-- **What `set_hw_watchpoint` can do** with debug enabled on a process: keep the first watchpoint
    there is, where it is of the kind asked for, or set a register for the address. -/
theorem setHwWatchpoint_cases (addr len : U32) (kind : WatchKind) :
    (∃ i wp, SlotTable.findSlot (fun _ => true) s.hwWatchpoints = some (i, wp) ∧ wp.kind = kind ∧
      s.setHwWatchpoint k addr len kind = (.ok true, s, k)) ∨
    (∀ i wp, SlotTable.findSlot (fun _ => true) s.hwWatchpoints = some (i, wp) → wp.kind ≠ kind) ∧
      ∃ i slot, ((∃ err, s.setHwWatchpoint k addr len kind =
          (.err err, s, { k with calls := k.calls + 1 })) ∨
        s.setHwWatchpoint k addr len kind =
          (.ok true, s.withWatch i slot, k.withPHWP pid i (addr, wpControl kind))) := by
  rcases hfind : SlotTable.findSlot (fun _ => true) s.hwWatchpoints with _ | ⟨i, wp⟩
  · have hempty : ∀ i, s.hwWatchpoints i = none := by
      intro i
      by_contra hi
      obtain ⟨wp, hwp⟩ := Option.ne_none_iff_exists'.mp hi
      exact absurd (SlotTable.findSlot_none_iff.mp hfind i wp hwp) (by simp)
    rcases hfree : SlotTable.freeSlot s.hwWatchpoints with _ | i
    · -- an empty table has a free slot
      have hnone := List.find?_eq_none.mp hfree 0 (List.mem_finRange 0)
      rw [hempty 0] at hnone
      exact absurd rfl hnone
    · refine .inr ⟨fun i wp h => absurd h (by simp), i, some ⟨addr, kind⟩, ?_⟩
      rw [setHwWatchpoint, hdebug, hpid, hfind, hfree]
      dsimp only [Bool.not_true, Bool.false_eq_true, if_false]
      rcases k.sceKernelSetPHWP_cases pid i addr (wpControl kind) with
        ⟨-, err, hcall⟩ | ⟨-, code, hcall⟩ <;> rw [hcall]
      · exact .inl ⟨err, rfl⟩
      · exact .inr rfl
  · by_cases hkind : wp.kind = kind
    · refine .inl ⟨i, wp, rfl, hkind, ?_⟩
      rw [setHwWatchpoint, hdebug, hpid, hfind]
      exact if_pos hkind
    · refine .inr ⟨fun i' wp' h => ?_, i, some { wp with kind := kind }, ?_⟩
      · rw [Option.some.injEq, Prod.mk.injEq] at h
        obtain ⟨-, rfl⟩ := h
        exact hkind
      · have hset : s.setHwWatchpoint k addr len kind =
            registerAnswer s (s.withWatch i (some { wp with kind := kind }))
              (k.sceKernelSetPHWP pid i addr (wpControl kind)) := by
          rw [setHwWatchpoint, hdebug, hpid, hfind]
          exact if_neg hkind
        rcases k.sceKernelSetPHWP_cases pid i addr (wpControl kind) with
          ⟨-, err, hcall⟩ | ⟨-, code, hcall⟩ <;> rw [hset, hcall]
        · exact .inl ⟨err, rfl⟩
        · exact .inr rfl

theorem addWatchpoint_iff (addr len : U32) (kind : WatchKind) :
    ((∃ b, (s.setHwWatchpoint k addr len kind).1 = .ok b) →
      Armed (s.setHwWatchpoint k addr len kind).2 addr) ↔
      (HwRequest.addWatchpoint addr len kind).Held s k := by
  have hheld : (HwRequest.addWatchpoint addr len kind).Held s k ↔ Armed (s, k) addr ∨
      ∀ i wp, SlotTable.findSlot (fun _ => true) s.hwWatchpoints = some (i, wp) →
        wp.kind ≠ kind := by
    simp [HwRequest.Held, hdebug, hpid]
  rw [hheld]
  rcases setHwWatchpoint_cases hdebug hpid addr len kind with
    ⟨i, wp, hfind, hkind, heq⟩ | ⟨hother, i, slot, ⟨err, heq⟩ | heq⟩ <;> rw [heq]
  · refine ⟨fun h => .inl (h ⟨true, rfl⟩), fun h _ => h.resolve_right fun hall => ?_⟩
    exact hall i wp hfind hkind
  · exact iff_of_true (fun h => absurd h (by simp)) (.inr hother)
  · obtain ⟨-, rfl⟩ := getPid_eq_some.mp hpid
    refine iff_of_true (fun _ => ⟨i, kind, ?_⟩) (.inr hother)
    show (k.withPHWP s.pid i _).phwp s.pid i = _
    rw [Kernel.withPHWP_phwp, Function.update_self]
    rfl

/-- **What `clear_hw_watchpoint` can do** with debug enabled on a process. -/
theorem clearHwWatchpoint_exits (addr : U32) :
    (SlotTable.findSlot (fun wp => wp.addr = addr) s.hwWatchpoints = none ∧
      s.clearHwWatchpoint k addr = (.ok false, s, k)) ∨
    ∃ i wp, SlotTable.findSlot (fun wp => wp.addr = addr) s.hwWatchpoints = some (i, wp) ∧
      (((k.ret k.calls).slt 0#32 = true ∧ ∃ err,
        s.clearHwWatchpoint k addr = (.err err, s, { k with calls := k.calls + 1 })) ∨
      ((k.ret k.calls).slt 0#32 = false ∧ s.clearHwWatchpoint k addr =
        (.ok true, s.withWatch i none, k.withPHWP pid i (0#32, 0#32)))) := by
  rcases hfind : SlotTable.findSlot (fun wp => wp.addr = addr) s.hwWatchpoints with _ | ⟨i, wp⟩
  · refine .inl ⟨hfind, ?_⟩
    rw [clearHwWatchpoint, hdebug, hpid, hfind]
    rfl
  · have hclear : s.clearHwWatchpoint k addr =
        registerAnswer s (s.withWatch i none) (k.sceKernelSetPHWP pid i 0#32 0#32) := by
      rw [clearHwWatchpoint, hdebug, hpid, hfind]
      rfl
    refine .inr ⟨i, wp, hfind, ?_⟩
    rcases k.sceKernelSetPHWP_cases pid i 0#32 0#32 with
      ⟨hfails, err, hcall⟩ | ⟨hgoes, code, hcall⟩ <;> rw [hclear, hcall]
    · exact .inl ⟨hfails, err, rfl⟩
    · exact .inr ⟨hgoes, rfl⟩

theorem removeWatchpoint_iff (addr : U32) :
    ((∃ b, (s.clearHwWatchpoint k addr).1 = .ok b) →
      (HwRequest.removeWatchpoint addr).Done (s, k) (s.clearHwWatchpoint k addr).2) ↔
      (HwRequest.removeWatchpoint addr).Held s k := by
  have hheld : (HwRequest.removeWatchpoint addr).Held s k ↔
      ∃ i wp, SlotTable.findSlot (fun wp => wp.addr = addr) s.hwWatchpoints = some (i, wp) ∧
        (registerFails k 0 = true ∨ ∃ kind, k.phwp s.pid i = watchRegister ⟨addr, kind⟩) := by
    simp [HwRequest.Held, hdebug, hpid]
  have hoff := not_watchArmed_off addr
  obtain ⟨-, rfl⟩ := getPid_eq_some.mp hpid
  rw [hheld, removeWatchpoint_done_iff]
  rcases clearHwWatchpoint_exits hdebug hpid addr with ⟨hno, heq⟩ |
    ⟨i, wp, hfind, ⟨hfails, err, heq⟩ | ⟨hgoes, heq⟩⟩ <;> rw [heq]
  · have hnone := not_released (WatchArmed addr) hoff (k.phwp s.pid)
    refine iff_of_false (fun h => hnone (h ⟨false, rfl⟩)) ?_
    rintro ⟨i, wp, hfind, -⟩
    rw [hno] at hfind
    exact absurd hfind (by simp)
  · exact iff_of_true (fun h => absurd h (by simp)) ⟨i, wp, hfind, .inl hfails⟩
  · have hdone := released_iff (WatchArmed addr) hoff (k.phwp s.pid) i
    rw [← Kernel.withPHWP_phwp] at hdone
    have hnofail : registerFails k 0 = false := hgoes
    rw [imp_iff_right ⟨true, rfl⟩]
    refine Iff.trans hdone ?_
    simp [hfind, hnofail, WatchArmed]

end Attached

/-! ## The replies -/

/-- A call of the session that does not fail is done, where its request is held. -/
theorem HwRequest.call_done_iff (s : GdbSessionInner) (k : Kernel) (request : HwRequest) :
    ((∃ b, (request.call s k).1 = .ok b) → request.Done (s, k) (request.call s k).2) ↔
      request.Held s k := by
  by_cases hdebug : k.isDebugEnabled = true
  · cases hpid : s.getPid with
    | none =>
      rw [call_detached hdebug hpid]
      refine iff_of_true (fun h => absurd h (by simp)) ?_
      cases request with
      | addBreakpoint addr => exact .inr ⟨hdebug, .inl hpid⟩
      | removeBreakpoint addr => exact ⟨hdebug, .inl hpid⟩
      | addWatchpoint addr len kind => exact .inr ⟨hdebug, .inl hpid⟩
      | removeWatchpoint addr => exact ⟨hdebug, .inl hpid⟩
    | some pid =>
      cases request with
      | addBreakpoint addr => exact addBreakpoint_iff hdebug hpid addr
      | removeBreakpoint addr => exact removeBreakpoint_iff hdebug hpid addr
      | addWatchpoint addr len kind => exact addWatchpoint_iff hdebug hpid addr len kind
      | removeWatchpoint addr => exact removeWatchpoint_iff hdebug hpid addr
  · -- with debug disabled the session refuses, and the target replies true
    rw [call_disabled (by simpa using hdebug)]
    cases request with
    | addBreakpoint addr =>
      exact ⟨fun h => .inl (h ⟨false, rfl⟩), fun h _ => h.resolve_right fun h => hdebug h.1⟩
    | removeBreakpoint addr =>
      have hnone := not_released (· = breakRegister ⟨addr⟩) (not_breakRegister_off addr)
        (k.phbp s.pid)
      exact iff_of_false (fun h => hnone (h ⟨false, rfl⟩)) fun h => hdebug h.1
    | addWatchpoint addr len kind =>
      exact ⟨fun h => .inl (h ⟨false, rfl⟩), fun h _ => h.resolve_right fun h => hdebug h.1⟩
    | removeWatchpoint addr =>
      rw [removeWatchpoint_done_iff]
      have hnone := not_released (WatchArmed addr) (not_watchArmed_off addr) (k.phwp s.pid)
      exact iff_of_false (fun h => hnone (h ⟨false, rfl⟩)) fun h => hdebug h.1

/-- **A hardware request is replied true truthfully** exactly where the registers are as asked
    already, or the session has a kernel call to make for it. -/
theorem hwRequest_truthful_iff (t : VitaTarget) (w : World) (request : HwRequest) :
    ReplyTruthful t w request ↔ ReplyHeld t w request := by
  rw [ReplyTruthful, ReplyHeld, hwRequest_eq, VitaTarget.hwCall]
  cases hsession : t.session with
  | none => simp
  | some i =>
    have hdone := request.call_done_iff (w.pool i) w.kernel
    dsimp only
    rw [replyOf_true]
    constructor
    · intro h i' hi'
      obtain rfl := Option.some.inj hi'
      refine hdone.mp fun hok => ?_
      obtain ⟨i', hi', hy⟩ := h hok
      obtain rfl := Option.some.inj hi'
      rwa [World.put_pool_self] at hy
    · intro h hok
      refine ⟨i, rfl, ?_⟩
      rw [World.put_pool_self]
      exact hdone.mpr (h i rfl) hok

/-- A session of process 7 whose six breakpoint registers are taken. -/
def sixBreakpoints : GdbSessionInner :=
  { freshSession with hwBreakpoints := fun i => some ⟨0x1000#32 + 4#32 * BitVec.ofNat 32 i.val⟩ }

def sixArmed : Kernel :=
  { Kernel.quiet countingText with
    phbp := fun _ i => (0x1000#32 + 4#32 * BitVec.ofNat 32 i.val, bpControl) }

/-- **A seventh breakpoint** is replied true, and no register has it. -/
theorem hwRequest_not_truthful :
    ¬ ∀ (t : VitaTarget) (w : World) (request : HwRequest), ReplyTruthful t w request := by
  intro hclaim
  obtain ⟨i, hi, j, hj⟩ := hclaim { VitaTarget.new ⟨3#32⟩ with session := some 0 }
    ⟨fun _ => sixBreakpoints, sixArmed⟩ (.addBreakpoint 0x7000#32) (by decide)
  obtain rfl := Option.some.inj hi
  revert hj
  revert j
  decide

end VitaGdb
