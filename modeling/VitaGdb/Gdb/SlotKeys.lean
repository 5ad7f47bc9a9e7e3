/-
  The slots of the software breakpoints, locked section by locked section.

  A call of `set_sw_breakpoint` takes the lock of the slots twice where its write fails: once to
  claim a slot, and again to release it by the index it has kept.  In between the lock is free, and
  a handler that finishes a step may have released the same slot.  `SlotRace` is one worker that
  sets and clears breakpoints and any number of handlers in `step_finished`; a step of a run is one
  locked section, one write of a trap, or a change of the kernel (so that calls fail in every
  pattern).  `setSwBreakpoint_run` and `stepFinished_run` say that the functions are the steps of
  their calls in a row.

  `SlotsGo` is what one step can do to the slots (`slotRaceStep_goes`).  Nobody but the worker
  claims slots, so the one it has claimed is its own or free until it is done with it: that is
  `SlotTable.Claimed`, kept by every step (`SlotsGo.ok`), and the keys are unique along every run
  (`sw_slots_keyed`).
-/
import VitaGdb.Gdb.PlantRace
import VitaGdb.Gdb.SwFailures

namespace VitaGdb

open GdbSessionInner

/-! ## The locked sections -/

/-- Where the worker is in a call of `set_sw_breakpoint`. -/
inductive SetStage where
  | idle
  /-- The original bytes are read, the lock is not taken. -/
  | read (pid : SceUID) (addr : U32) (kind : ArmBreakpointKind) (orig : List U8)
  /-- The slot is claimed, the lock is released. -/
  | claimed (pid : SceUID) (addr : U32) (kind : ArmBreakpointKind) (orig : List U8)
    (slot : Fin 16)
  /-- The trap could not be written. -/
  | failed (addr : U32) (kind : ArmBreakpointKind) (orig : List U8) (slot : Fin 16)
  deriving DecidableEq

/-- The address that is set. -/
def SetStage.addr : SetStage → Option U32
  | .idle => none
  | .read _ addr _ _ => some addr
  | .claimed _ addr _ _ _ => some addr
  | .failed addr _ _ _ => some addr

/-- The slot the call has claimed, and what it has put into it. -/
def SetStage.held : SetStage → Option (Fin 16 × SwBreakpoint)
  | .idle => none
  | .read .. => none
  | .claimed _ addr kind orig slot => some (slot, SwBreakpoint.found addr orig kind)
  | .failed addr kind orig slot => some (slot, SwBreakpoint.found addr orig kind)

/-- Where a handler is in a call of `step_finished`. -/
inductive FinishStage where
  | idle
  /-- The step is taken. -/
  | taken (stepTid : SceUID) (stepAddr : U32)
  /-- Its breakpoint is cleared. -/
  | cleared (stepTid : SceUID)
  /-- The result is stored. -/
  | stored
  | panicked
  deriving DecidableEq

/-- One session, the worker, and the handlers `H` that other cores run. -/
structure SlotRace (H : Type) where
  session : GdbSessionInner
  kernel : Kernel
  worker : SetStage
  handler : H → FinishStage

inductive SlotRaceEvent (H : Type) where
  /-- The worker calls `set_sw_breakpoint`; then the sections and the write of the call. -/
  | set (addr : U32) (kind : ArmBreakpointKind)
  | claim
  | write
  | release
  /-- The worker calls `clear_sw_breakpoint`, or `set_step`. -/
  | clear (addr : U32)
  | setStep (tid : SceUID) (addr : U32)
  /-- A handler calls `step_finished`; then the sections of the call. -/
  | takeStep (h : H)
  | clearStep (h : H)
  | storeResult (h : H)
  | wake (h : H)
  /-- Anything else that runs: the kernel is another one. -/
  | kernel (k : Kernel)

variable {H : Type}

/-- A handler moves on. -/
def SlotRace.moveTo [DecidableEq H] (x : SlotRace H) (h : H) (stage : FinishStage) : SlotRace H :=
  { x with handler := Function.update x.handler h stage }

/-- One step; the worker makes one call at a time, and so does a handler. -/
def slotRaceStep [DecidableEq H] (x : SlotRace H) : SlotRaceEvent H → Option (SlotRace H)
  | .set addr kind =>
    match x.worker with
    | .idle =>
      match x.session.readOrig x.kernel addr kind with
      | none => some x
      | some (pid, orig) => some { x with worker := .read pid addr kind orig }
    | _ => none
  | .claim =>
    match x.worker with
    | .read pid addr kind orig =>
      match x.session.claimSlot addr kind orig with
      | (.error _, s) => some { x with session := s, worker := .idle }
      | (.ok slot, s) => some { x with session := s, worker := .claimed pid addr kind orig slot }
    | _ => none
  | .write =>
    match x.worker with
    | .claimed pid addr kind orig slot =>
      match x.kernel.writeUserText pid addr (patched kind) with
      | (.ok _, k) => some { x with kernel := k, worker := .idle }
      | (.error _, k) => some { x with kernel := k, worker := .failed addr kind orig slot }
    | _ => none
  | .release =>
    match x.worker with
    | .failed _ _ _ slot => some { x with session := x.session.withSlot slot none, worker := .idle }
    | _ => none
  | .clear addr =>
    match x.worker with
    | .idle =>
      let (_, s, k) := x.session.clearSwBreakpoint x.kernel addr
      some { x with session := s, kernel := k }
    | _ => none
  | .setStep tid addr =>
    match x.worker with
    | .idle => some { x with session := x.session.setStep tid addr }
    | _ => none
  | .takeStep h =>
    match x.handler h with
    | .idle =>
      match x.session.step with
      | none => some x
      | some (stepTid, stepAddr) =>
        some { x.moveTo h (.taken stepTid stepAddr) with
          session := { x.session with step := none } }
    | _ => none
  | .clearStep h =>
    match x.handler h with
    | .taken stepTid stepAddr =>
      let (_, s, k) := x.session.clearSwBreakpoint x.kernel stepAddr
      some { x.moveTo h (.cleared stepTid) with session := s, kernel := k }
    | _ => none
  | .storeResult h =>
    match x.handler h with
    | .cleared stepTid =>
      some { x.moveTo h .stored with session := { x.session with stepResult := some stepTid } }
    | _ => none
  | .wake h =>
    match x.handler h with
    | .stored =>
      match x.session.evflag with
      | none => some (x.moveTo h .panicked)
      | some evflag =>
        some { x.moveTo h .idle with kernel := (evflag.set x.kernel evWakeWorker).2 }
    | _ => none
  | .kernel k => some { x with kernel := k }

/-- The session and the kernel with nobody inside a call. -/
def slotRaceStart (s : GdbSessionInner) (k : Kernel) : SlotRace H where
  session := s
  kernel := k
  worker := .idle
  handler := fun _ => .idle

/-- The address a step sets: that of the call it is a step of. -/
def SlotRaceEvent.sets (x : SlotRace H) : SlotRaceEvent H → Option U32
  | .set addr _ => some addr
  | .claim | .write | .release => x.worker.addr
  | _ => none

/-! ## The calls with nothing in between -/

section Calls

variable [DecidableEq H] {x : SlotRace H}

/-- **`setSwBreakpoint` is a run of the worker**: its read, and the sections and the write it gets
    to. -/
theorem setSwBreakpoint_run (hidle : x.worker = .idle) (addr : U32) (kind : ArmBreakpointKind) :
    ∃ n ≤ 3, LTS.exec slotRaceStep x (.set addr kind :: [.claim, .write, .release].take n) =
      some { x with
        session := (x.session.setSwBreakpoint x.kernel addr kind).2.1
        kernel := (x.session.setSwBreakpoint x.kernel addr kind).2.2 } := by
  obtain ⟨s, k, worker, handler⟩ := x
  dsimp only at hidle
  subst hidle
  rw [setSwBreakpoint_eq_steps]
  cases hread : s.readOrig k addr kind with
  | none =>
    refine ⟨0, by omega, ?_⟩
    simp [LTS.exec, slotRaceStep, hread]
  | some found =>
    obtain ⟨pid, orig⟩ := found
    rcases hclaim : s.claimSlot addr kind orig with ⟨res, s'⟩
    cases res with
    | error answer =>
      refine ⟨1, by omega, ?_⟩
      simp [LTS.exec, slotRaceStep, hread, hclaim]
    | ok slot =>
      rcases hwrite : k.writeUserText pid addr (patched kind) with ⟨res, k'⟩
      cases res with
      | ok _ =>
        refine ⟨2, by omega, ?_⟩
        simp [LTS.exec, slotRaceStep, hread, hclaim, writeTrap, hwrite]
      | error _ =>
        refine ⟨3, by omega, ?_⟩
        simp [LTS.exec, slotRaceStep, hread, hclaim, writeTrap, hwrite]

/-- **`stepFinished` is a run of the handler**, which ends in the panic where the function does. -/
theorem stepFinished_run {h : H} (hidle : x.handler h = .idle) :
    ∃ n ≤ 3, LTS.exec slotRaceStep x
        (.takeStep h :: [.clearStep h, .storeResult h, .wake h].take n) =
      some { x.moveTo h
          (if (x.session.stepFinished x.kernel).1 = .panic then .panicked else .idle) with
        session := (x.session.stepFinished x.kernel).2.1
        kernel := (x.session.stepFinished x.kernel).2.2 } := by
  obtain ⟨s, k, worker, handler⟩ := x
  dsimp only at hidle
  rw [stepFinished_eq_steps]
  cases hstep : s.step with
  | none =>
    refine ⟨0, by omega, ?_⟩
    have hsame : Function.update handler h .idle = handler := by
      rw [← hidle, Function.update_eq_self]
    simp [LTS.exec, slotRaceStep, hidle, hstep, SlotRace.moveTo, hsame]
  | some step =>
    obtain ⟨stepTid, stepAddr⟩ := step
    refine ⟨3, by omega, ?_⟩
    rcases hclear : clearSwBreakpoint { s with step := none } k stepAddr with ⟨answer, s', k'⟩
    cases hflag : s'.evflag with
    | none =>
      simp [LTS.exec, slotRaceStep, hidle, hstep, SlotRace.moveTo, finishTaken, hclear, hflag]
    | some evflag =>
      simp [LTS.exec, slotRaceStep, hidle, hstep, SlotRace.moveTo, finishTaken, hclear, hflag]

end Calls

/-! ## What a step does to the slots -/

/-- What a step can do to the slots: one case for each kind of locked section. -/
inductive SlotsGo (x : SlotRace H) (e : SlotRaceEvent H) (y : SlotRace H) : Prop where
  /-- It leaves them alone. -/
  | stay (he : e ≠ .release) (hslots : y.session.swBreakpoints = x.session.swBreakpoints)
      (hheld : y.worker.held = x.worker.held ∨ y.worker.held = none)
  /-- The worker claims a free slot, for an address that has none. -/
  | claims (pid : SceUID) (addr : U32) (kind : ArmBreakpointKind) (orig : List U8)
      (slot : Fin 16) (he : e = .claim) (hworker : x.worker = .read pid addr kind orig)
      (hfree : x.session.swBreakpoints slot = none) (hfresh : ¬ x.session.HasSlot addr)
      (hslots : y.session.swBreakpoints = Function.update x.session.swBreakpoints slot
        (some (SwBreakpoint.found addr orig kind)))
      (hheld : y.worker.held = some (slot, SwBreakpoint.found addr orig kind))
  /-- The worker comes back to its slot. -/
  | releases (addr : U32) (kind : ArmBreakpointKind) (orig : List U8) (slot : Fin 16)
      (he : e = .release) (hworker : x.worker = .failed addr kind orig slot)
      (hslots : y.session.swBreakpoints = Function.update x.session.swBreakpoints slot none)
      (hheld : y.worker.held = none)
  /-- A breakpoint is cleared, by the worker or a handler. -/
  | clears (slot : Fin 16) (hsets : e.sets x = none)
      (hslots : y.session.swBreakpoints = Function.update x.session.swBreakpoints slot none)
      (hheld : y.worker.held = x.worker.held)

variable {x y : SlotRace H}

/-- Clearing a breakpoint, whoever does. -/
theorem SlotsGo.ofClear {e : SlotRaceEvent H} {addr : U32} (he : e ≠ .release)
    (hsets : e.sets x = none)
    (hslots : y.session.swBreakpoints =
      (x.session.clearSwBreakpoint x.kernel addr).2.1.swBreakpoints)
    (hworker : y.worker = x.worker) : SlotsGo x e y := by
  rcases clearSwBreakpoint_withSlot x.session x.kernel addr with heq | ⟨i, heq⟩
  · rw [heq] at hslots
    exact .stay he hslots (.inl (by rw [hworker]))
  · rw [heq] at hslots
    exact .clears i hsets hslots (by rw [hworker])

section Steps

variable [DecidableEq H]

/-- The steps of the worker. -/
theorem slotRaceStep_goes_set {addr : U32} {kind : ArmBreakpointKind}
    (hy : slotRaceStep x (.set addr kind) = some y) : SlotsGo x (.set addr kind) y := by
  simp only [slotRaceStep] at hy
  cases hworker : x.worker with
  | idle =>
    simp only [hworker] at hy
    cases hread : x.session.readOrig x.kernel addr kind with
    | none =>
      simp only [hread, Option.some.injEq] at hy
      subst hy
      exact .stay nofun rfl (.inl rfl)
    | some found =>
      simp only [hread, Option.some.injEq] at hy
      subst hy
      exact .stay nofun rfl (.inr rfl)
  | _ => simp [hworker] at hy

theorem slotRaceStep_goes_claim (hy : slotRaceStep x .claim = some y) : SlotsGo x .claim y := by
  simp only [slotRaceStep] at hy
  cases hworker : x.worker with
  | read pid addr kind orig =>
    simp only [hworker] at hy
    rcases claimSlot_cases x.session addr kind orig with ⟨answer, heq⟩ | ⟨i, hfree, hfresh, heq⟩
    · simp only [heq, Option.some.injEq] at hy
      subst hy
      exact .stay nofun rfl (.inr rfl)
    · simp only [heq, Option.some.injEq] at hy
      subst hy
      exact .claims pid addr kind orig i rfl hworker hfree hfresh rfl rfl
  | _ => simp [hworker] at hy

theorem slotRaceStep_goes_write (hy : slotRaceStep x .write = some y) : SlotsGo x .write y := by
  simp only [slotRaceStep] at hy
  cases hworker : x.worker with
  | claimed pid addr kind orig slot =>
    simp only [hworker] at hy
    rcases hwrite : x.kernel.writeUserText pid addr (patched kind) with ⟨res, k⟩
    cases res with
    | ok _ =>
      simp only [hwrite, Option.some.injEq] at hy
      subst hy
      exact .stay nofun rfl (.inr rfl)
    | error _ =>
      simp only [hwrite, Option.some.injEq] at hy
      subst hy
      refine .stay nofun rfl (.inl ?_)
      rw [hworker]
      rfl
  | _ => simp [hworker] at hy

theorem slotRaceStep_goes_release (hy : slotRaceStep x .release = some y) :
    SlotsGo x .release y := by
  simp only [slotRaceStep] at hy
  cases hworker : x.worker with
  | failed addr kind orig slot =>
    simp only [hworker, Option.some.injEq] at hy
    subst hy
    exact .releases addr kind orig slot rfl hworker rfl rfl
  | _ => simp [hworker] at hy

/-- The steps of a handler. -/
theorem slotRaceStep_goes_finish {e : SlotRaceEvent H} {h : H}
    (he : e = .takeStep h ∨ e = .clearStep h ∨ e = .storeResult h ∨ e = .wake h)
    (hy : slotRaceStep x e = some y) : SlotsGo x e y := by
  rcases he with rfl | rfl | rfl | rfl <;> simp only [slotRaceStep] at hy
  · cases hstage : x.handler h with
    | idle =>
      simp only [hstage] at hy
      cases hstep : x.session.step with
      | none =>
        simp only [hstep, Option.some.injEq] at hy
        subst hy
        exact .stay nofun rfl (.inl rfl)
      | some step =>
        simp only [hstep, Option.some.injEq] at hy
        subst hy
        exact .stay nofun rfl (.inl rfl)
    | _ => simp [hstage] at hy
  · cases hstage : x.handler h with
    | taken stepTid stepAddr =>
      simp only [hstage, Option.some.injEq] at hy
      subst hy
      exact .ofClear nofun rfl rfl rfl
    | _ => simp [hstage] at hy
  · cases hstage : x.handler h with
    | cleared stepTid =>
      simp only [hstage, Option.some.injEq] at hy
      subst hy
      exact .stay nofun rfl (.inl rfl)
    | _ => simp [hstage] at hy
  · cases hstage : x.handler h with
    | stored =>
      simp only [hstage] at hy
      cases hflag : x.session.evflag with
      | none =>
        simp only [hflag, Option.some.injEq] at hy
        subst hy
        exact .stay nofun rfl (.inl rfl)
      | some evflag =>
        simp only [hflag, Option.some.injEq] at hy
        subst hy
        exact .stay nofun rfl (.inl rfl)
    | _ => simp [hstage] at hy

/-- **Every step goes by one of the cases.** -/
theorem slotRaceStep_goes {e : SlotRaceEvent H} (hy : slotRaceStep x e = some y) :
    SlotsGo x e y := by
  cases e with
  | set addr kind => exact slotRaceStep_goes_set hy
  | claim => exact slotRaceStep_goes_claim hy
  | write => exact slotRaceStep_goes_write hy
  | release => exact slotRaceStep_goes_release hy
  | clear addr =>
    simp only [slotRaceStep] at hy
    cases hworker : x.worker with
    | idle =>
      simp only [hworker, Option.some.injEq] at hy
      subst hy
      exact .ofClear nofun rfl rfl hworker.symm
    | _ => simp [hworker] at hy
  | setStep tid addr =>
    simp only [slotRaceStep] at hy
    cases hworker : x.worker with
    | idle =>
      simp only [hworker, Option.some.injEq] at hy
      subst hy
      exact .stay nofun rfl (.inr rfl)
    | _ => simp [hworker] at hy
  | takeStep h => exact slotRaceStep_goes_finish (.inl rfl) hy
  | clearStep h => exact slotRaceStep_goes_finish (.inr (.inl rfl)) hy
  | storeResult h => exact slotRaceStep_goes_finish (.inr (.inr (.inl rfl))) hy
  | wake h => exact slotRaceStep_goes_finish (.inr (.inr (.inr rfl))) hy
  | kernel k =>
    simp only [slotRaceStep, Option.some.injEq] at hy
    subst hy
    exact .stay nofun rfl (.inl rfl)

end Steps

/-! ## Unique keys -/

/-- The keys are unique, and the worker's slot is its own or free. -/
def SlotsOk (x : SlotRace H) : Prop :=
  SlotTable.Claimed SwBreakpoint.addr x.session.swBreakpoints x.worker.held

/-- **Every step keeps the slots in order.** -/
theorem SlotsGo.ok {e : SlotRaceEvent H} (hx : SlotsOk x) (hgo : SlotsGo x e y) : SlotsOk y := by
  rw [SlotsOk]
  cases hgo with
  | stay he hslots hheld =>
    rw [hslots]
    rcases hheld with hheld | hheld
    · rw [hheld]
      exact hx
    · rw [hheld]
      exact hx.settle
  | claims pid addr kind orig slot he hworker hfree hfresh hslots hheld =>
    rw [hslots, hheld]
    exact hx.claim slot _ fun j b hb haddr => hfresh ⟨j, b, hb, haddr⟩
  | releases addr kind orig slot he hworker hslots hheld =>
    rw [hslots, hheld]
    exact (hx.release slot).settle
  | clears slot hsets hslots hheld =>
    rw [hslots, hheld]
    exact hx.release slot

/-- What a step of a call that sets an address may do to the slots. -/
structure SetsOwn (x : SlotRace H) (e : SlotRaceEvent H) (y : SlotRace H) : Prop where
  /-- The slots of other addresses are as they were. -/
  others : ∀ addr ∈ e.sets x, ∀ i b, b.addr ≠ addr →
    (y.session.swBreakpoints i = some b ↔ x.session.swBreakpoints i = some b)
  /-- It releases no slot but the one the call has claimed, with the call's own breakpoint in it,
      and that where the trap could not be written. -/
  releases : ∀ addr ∈ e.sets x, ∀ i b, x.session.swBreakpoints i = some b →
    y.session.swBreakpoints i ≠ some b →
      ∃ kind orig, x.worker = .failed addr kind orig i ∧ b = SwBreakpoint.found addr orig kind
  /-- A call whose trap could not be written leaves its slot free. -/
  frees : ∀ addr kind orig i, x.worker = .failed addr kind orig i → e = .release →
    y.session.swBreakpoints i = none

/-- What a step sets is what its call has been given. -/
theorem sets_eq {e : SlotRaceEvent H} {addr a : U32} (he : e = .claim ∨ e = .release)
    (haddr : x.worker.addr = some addr) (ha : a ∈ e.sets x) : a = addr := by
  have hsets : e.sets x = x.worker.addr := by rcases he with rfl | rfl <;> rfl
  rw [hsets, haddr] at ha
  exact (Option.mem_some_iff.mp ha).symm

/-- **A step of a call that sets an address** touches slots of that address only. -/
theorem SlotsGo.setsOwn {e : SlotRaceEvent H} (hx : SlotsOk x) (hgo : SlotsGo x e y) :
    SetsOwn x e y := by
  cases hgo with
  | stay he hslots hheld =>
    refine ⟨fun addr _ i b _ => by rw [hslots], fun addr _ i b hb hgone => ?_,
      fun _ _ _ _ _ hrelease => absurd hrelease he⟩
    rw [hslots] at hgone
    exact absurd hb hgone
  | claims pid addr kind orig slot he hworker hfree hfresh hslots hheld =>
    have haddr : x.worker.addr = some addr := by rw [hworker]; rfl
    refine ⟨fun a ha i b hne => ?_, fun a ha i b hb hgone => ?_, fun _ _ _ _ hfailed _ => ?_⟩
    · rw [sets_eq (.inl he) haddr ha] at hne
      rw [hslots]
      refine SlotTable.update_others (fun c hc => ?_) (fun c hc => ?_) hne
      · exact absurd (hfree.symm.trans hc) (by simp)
      · rw [← Option.some.inj hc]
        rfl
    · -- the slot that changes had no entry
      rw [hslots] at hgone
      obtain rfl := SlotTable.update_gone hb hgone
      exact absurd (hfree.symm.trans hb) (by simp)
    · exact absurd (hworker.symm.trans hfailed) (by simp)
  | releases addr kind orig slot he hworker hslots _ =>
    have haddr : x.worker.addr = some addr := by rw [hworker]; rfl
    have hheld : x.worker.held = some (slot, SwBreakpoint.found addr orig kind) := by
      rw [hworker]
      rfl
    have hown : ∀ c, x.session.swBreakpoints slot = some c →
        c = SwBreakpoint.found addr orig kind := by
      intro c hc
      rcases hx.own slot _ hheld with hnone | hsome
      · exact absurd (hnone.symm.trans hc) (by simp)
      · exact Option.some.inj (hc.symm.trans hsome)
    refine ⟨fun a ha i b hne => ?_, fun a ha i b hb hgone => ?_, fun _ _ _ i hfailed _ => ?_⟩
    · rw [sets_eq (.inr he) haddr ha] at hne
      rw [hslots]
      refine SlotTable.update_others (fun c hc => ?_) (fun c hc => absurd hc (by simp)) hne
      rw [hown c hc]
      rfl
    · rw [hslots] at hgone
      obtain rfl := SlotTable.update_gone hb hgone
      refine ⟨kind, orig, ?_, ?_⟩
      · rw [sets_eq (.inr he) haddr ha]
        exact hworker
      · rw [sets_eq (.inr he) haddr ha]
        exact hown b hb
    · rw [hworker, SetStage.failed.injEq] at hfailed
      rw [hslots, ← hfailed.2.2.2, Function.update_self]
  | clears slot hsets hslots hheld =>
    refine ⟨fun a ha => ?_, fun a ha => ?_, fun a kind orig i hfailed he => ?_⟩
    · exact absurd (hsets.symm.trans ha) (by simp)
    · exact absurd (hsets.symm.trans ha) (by simp)
    · rw [he, SlotRaceEvent.sets, hfailed] at hsets
      exact absurd hsets (by simp [SetStage.addr])

/-- Along a run the slots stay in order. -/
theorem slots_ok [DecidableEq H] {s : GdbSessionInner} {k : Kernel}
    (hkeyed : SlotTable.KeyedBy SwBreakpoint.addr s.swBreakpoints) (events : List (SlotRaceEvent H))
    (hrun : LTS.exec slotRaceStep (slotRaceStart s k) events = some x) : SlotsOk x := by
  have hstart : SlotsOk (slotRaceStart s k : SlotRace H) := SlotTable.Claimed.start hkeyed
  exact LTS.exec_keeps (fun _ _ _ hx hy => (slotRaceStep_goes hy).ok hx) events hstart hrun

/-- **The slots of the software breakpoints are keyed uniquely**, whatever the order of the locked
    sections of one worker and any number of handlers and whichever kernel calls fail: no two
    slots ever hold one address, a call that sets an address changes no slot of another, and where
    it fails it releases its own slot and no other. -/
theorem sw_slots_keyed (H : Type) [DecidableEq H] (s : GdbSessionInner) (k : Kernel)
    (hkeyed : SlotTable.KeyedBy SwBreakpoint.addr s.swBreakpoints) (events : List (SlotRaceEvent H))
    (x : SlotRace H) (hrun : LTS.exec slotRaceStep (slotRaceStart s k) events = some x) :
    SlotTable.KeyedBy SwBreakpoint.addr x.session.swBreakpoints ∧
      ∀ e y, slotRaceStep x e = some y → SetsOwn x e y := by
  have hok := slots_ok hkeyed events hrun
  exact ⟨hok.keyed, fun e y hy => (slotRaceStep_goes hy).setsOwn hok⟩

/-- A breakpoint is set again at the address of a step; the handler releases the slot before the
    write of the trap fails, and the worker releases it once more. -/
def setAgain : List (SlotRaceEvent Unit) :=
  [.set 0x1000#32 .thumb16, .claim, .write, .setStep 9#32 0x1000#32, .takeStep (),
    .clear 0x1000#32, .set 0x1000#32 .thumb16, .claim, .clearStep (), .write, .release]

theorem sw_slots_keyed_setAgain :
    ∃ x, LTS.exec slotRaceStep (slotRaceStart wordAttached (wordText 12)) setAgain = some x ∧
      SlotTable.KeyedBy SwBreakpoint.addr x.session.swBreakpoints ∧
      ∀ e y, slotRaceStep x e = some y → SetsOwn x e y := by
  have hgoes : (LTS.exec slotRaceStep (slotRaceStart wordAttached (wordText 12))
      setAgain).isSome := by decide +kernel
  obtain ⟨x, hx⟩ := Option.isSome_iff_exists.mp hgoes
  exact ⟨x, hx, sw_slots_keyed Unit wordAttached (wordText 12) (SlotTable.KeyedBy.empty _)
    setAgain x hx⟩

end VitaGdb
