/-
  `kernel/utils.rs`: `halt_process`, against any answers of the kernel.

  The kernel of `Kernel.Calls` suspends a process at once.  Here every call of `halt_process` is
  answered by an oracle: its return code and, where it asks for the status, the status word, so that
  the suspended bit may come late, or never.  `haltProcess_eq` says that the kernel of
  `Kernel.Calls` is one of these.

  The loop has three ends: the bit is seen, a call fails, or a thousand looks are used up.  The
  first and the last go on to the same call, so a process that never halts is reported as one that
  has (`GivesUp`), unless that call fails; `haltProcess_suspended_iff` is this for `halt_process`,
  for `attach` and for the interrupt.
-/
import VitaGdb.Gdb.Attaching
import VitaGdb.Gdb.EventLoop

namespace VitaGdb

open Kernel (processStatusSuspended processHaltStatus)

/-! ## The calls and their answers -/

/-- What the kernel answers to the calls of `halt_process`, counted from its first. -/
structure HaltAnswers where
  code : Nat → I32
  /-- The status word, where the call asks for it. -/
  status : Nat → U32

/-- The calls made so far, and the last status that was read. -/
structure HaltState where
  calls : Nat
  last : Option U32

namespace HaltAnswers

/-- `sce_call!`. -/
def call (a : HaltAnswers) (func : String) (s : HaltState) : Except SceError I32 × HaltState :=
  let code := a.code s.calls
  let s := { s with calls := s.calls + 1 }
  if code.slt 0#32 then (.error ⟨code, func⟩, s) else (.ok code, s)

/-- `get_process_status`. -/
def getProcessStatus (a : HaltAnswers) (s : HaltState) : Except SceError U32 × HaltState :=
  let status := a.status s.calls
  match a.call "ksceKernelGetProcessStatus" s with
  | (.error err, s) => (.error err, s)
  | (.ok _, s) => (.ok status, { s with last := some status })

/-- The loop, with `fuel` rounds left.  A delay between two rounds changes nothing. -/
def waitSuspended (a : HaltAnswers) : Nat → HaltState → Except SceError Unit × HaltState
  | 0, s => (.ok (), s)
  | fuel + 1, s =>
    match a.getProcessStatus s with
    | (.error err, s) => (.error err, s)
    | (.ok status, s) =>
      if status &&& processStatusSuspended ≠ 0#32 then (.ok (), s) else waitSuspended a fuel s

/-- `halt_process`. -/
def haltProcess (a : HaltAnswers) : Except SceError SceUID × HaltState :=
  match a.getProcessStatus { calls := 0, last := none } with
  | (.error err, s) => (.error err, s)
  | (.ok status, s) =>
    if status &&& processStatusSuspended = 0#32 then
      match a.call "ksceKernelSuspendProcess" s with
      | (.error err, s) => (.error err, s)
      | (.ok _, s) =>
        match a.waitSuspended 1000 s with
        | (.error err, s) => (.error err, s)
        | (.ok _, s) => a.call "ksceKernelGetProcessMainThread" s
    else a.call "ksceKernelGetProcessMainThread" s

/-- A look at the status that finds the process suspended. -/
def Sees (a : HaltAnswers) (n : Nat) : Prop :=
  (a.code n).slt 0#32 = false ∧ a.status n &&& processStatusSuspended ≠ 0#32

/-- A look at the status that finds the process running. -/
def Running (a : HaltAnswers) (n : Nat) : Prop :=
  (a.code n).slt 0#32 = false ∧ a.status n &&& processStatusSuspended = 0#32

/-- The first look sees the bit, or one of the thousand looks after the suspend call does, with no
    failing call before it. -/
def SeesBit (a : HaltAnswers) : Prop :=
  a.Sees 0 ∨ a.Running 0 ∧ (a.code 1).slt 0#32 = false ∧
    ∃ i < 1000, (∀ j < i, a.Running (2 + j)) ∧ a.Sees (2 + i)

/-- All looks find the process running, and no call fails. -/
def GivesUp (a : HaltAnswers) : Prop :=
  a.Running 0 ∧ (a.code 1).slt 0#32 = false ∧ (∀ i < 1000, a.Running (2 + i)) ∧
    (a.code 1002).slt 0#32 = false

end HaltAnswers

/-- The last status that was read has the bit. -/
def HaltState.Suspended (s : HaltState) : Prop :=
  ∃ status, s.last = some status ∧ status &&& processStatusSuspended ≠ 0#32

theorem HaltState.suspended_some_iff {calls : Nat} {status : U32} :
    HaltState.Suspended ⟨calls, some status⟩ ↔ status &&& processStatusSuspended ≠ 0#32 := by
  constructor
  · rintro ⟨status', hlast, hbit⟩
    obtain rfl := Option.some.inj hlast
    exact hbit
  · intro hbit
    exact ⟨status, rfl, hbit⟩

theorem HaltState.not_suspended_none {calls : Nat} : ¬ HaltState.Suspended ⟨calls, none⟩ :=
  fun ⟨_, h, _⟩ => absurd h (by simp)

/-! ## The three ends of the loop -/

namespace HaltAnswers

variable {a : HaltAnswers} {s : HaltState}

theorem Running.not_sees {n : Nat} (h : a.Running n) : ¬ a.Sees n := fun hsees => hsees.2 h.2

theorem GivesUp.not_seesBit (h : a.GivesUp) : ¬ a.SeesBit := by
  rintro (hsees | ⟨-, -, i, hi, -, hsees⟩)
  · exact h.1.not_sees hsees
  · exact (h.2.2.1 i hi).not_sees hsees

/-- A call counts. -/
theorem call_goes (a : HaltAnswers) (func : String) (s : HaltState) :
    (a.code s.calls).slt 0#32 = true ∧
        a.call func s = (.error ⟨a.code s.calls, func⟩, { s with calls := s.calls + 1 }) ∨
      (a.code s.calls).slt 0#32 = false ∧
        a.call func s = (.ok (a.code s.calls), { s with calls := s.calls + 1 }) := by
  cases hcode : (a.code s.calls).slt 0#32 with
  | true =>
    refine .inl ⟨rfl, ?_⟩
    rw [call, if_pos hcode]
  | false =>
    refine .inr ⟨rfl, ?_⟩
    rw [call, if_neg (by rw [hcode]; simp)]

/-- A look at the status. -/
theorem getProcessStatus_goes (a : HaltAnswers) (s : HaltState) :
    ((a.code s.calls).slt 0#32 = true ∧ ∃ err,
        a.getProcessStatus s = (.error err, { s with calls := s.calls + 1 })) ∨
      (a.code s.calls).slt 0#32 = false ∧ a.getProcessStatus s =
        (.ok (a.status s.calls), { calls := s.calls + 1, last := some (a.status s.calls) }) := by
  rw [getProcessStatus]
  rcases a.call_goes "ksceKernelGetProcessStatus" s with ⟨hcode, hcall⟩ | ⟨hcode, hcall⟩
  · rw [hcall]
    exact .inl ⟨hcode, _, rfl⟩
  · rw [hcall]
    exact .inr ⟨hcode, rfl⟩

/-- How the loop can end. -/
inductive WaitEnds (a : HaltAnswers) (fuel : Nat) (s : HaltState) :
    Except SceError Unit × HaltState → Prop where
  | seen (i : Nat) (hi : i < fuel) (hbefore : ∀ j < i, a.Running (s.calls + j))
      (hsees : a.Sees (s.calls + i)) :
      WaitEnds a fuel s
        (.ok (), { calls := s.calls + i + 1, last := some (a.status (s.calls + i)) })
  | failed (i : Nat) (hi : i < fuel) (hbefore : ∀ j < i, a.Running (s.calls + j))
      (hcode : (a.code (s.calls + i)).slt 0#32 = true) (err : SceError) (s' : HaltState)
      (hlast : ¬ s'.Suspended) : WaitEnds a fuel s (.error err, s')
  | spent (hall : ∀ j < fuel, a.Running (s.calls + j)) (s' : HaltState)
      (hcalls : s'.calls = s.calls + fuel) (hlast : ¬ s'.Suspended) : WaitEnds a fuel s (.ok (), s')

/-- The loop, from a state in which the bit has not been seen. -/
theorem waitSuspended_ends (a : HaltAnswers) (fuel : Nat) (s : HaltState) (hs : ¬ s.Suspended) :
    WaitEnds a fuel s (a.waitSuspended fuel s) := by
  induction fuel generalizing s with
  | zero => exact .spent (fun _ h => absurd h (Nat.not_lt_zero _)) s rfl hs
  | succ fuel ih =>
    rw [waitSuspended]
    rcases a.getProcessStatus_goes s with ⟨hcode, err, hlook⟩ | ⟨hcode, hlook⟩
    · rw [hlook]
      exact .failed 0 (Nat.succ_pos _) (fun _ h => absurd h (Nat.not_lt_zero _)) hcode err _ hs
    · rw [hlook]
      dsimp only
      by_cases hbit : a.status s.calls &&& processStatusSuspended ≠ 0#32
      · rw [if_pos hbit]
        exact .seen 0 (Nat.succ_pos _) (fun _ h => absurd h (Nat.not_lt_zero _)) ⟨hcode, hbit⟩
      · rw [if_neg hbit]
        have hrunning : a.Running s.calls := ⟨hcode, not_not.mp hbit⟩
        have hs' : ¬ HaltState.Suspended { calls := s.calls + 1, last := some (a.status s.calls) } :=
          fun h => hbit (HaltState.suspended_some_iff.mp h)
        -- the looks of the rest, counted from this one
        have hshift : ∀ {i}, (∀ j < i, a.Running (s.calls + 1 + j)) →
            ∀ j < i + 1, a.Running (s.calls + j) := by
          intro i h j hj
          cases j with
          | zero => exact hrunning
          | succ j =>
            have hj := h j (by omega)
            rwa [Nat.add_assoc, Nat.add_comm 1 j] at hj
        have hends := ih _ hs'
        generalize a.waitSuspended fuel { calls := s.calls + 1, last := some (a.status s.calls) } =
          answer at hends
        cases hends with
        | seen i hi hbefore hsees =>
          have hi' : s.calls + 1 + i = s.calls + (i + 1) := by omega
          dsimp only at hbefore hsees
          rw [hi'] at hsees
          dsimp only
          rw [hi']
          exact .seen (i + 1) (by omega) (hshift hbefore) hsees
        | failed i hi hbefore hcode' err s' hlast =>
          have hi' : s.calls + 1 + i = s.calls + (i + 1) := by omega
          dsimp only at hbefore hcode'
          rw [hi'] at hcode'
          exact .failed (i + 1) (by omega) (hshift hbefore) hcode' err s' hlast
        | spent hall s' hcalls hlast =>
          dsimp only at hall hcalls
          exact .spent (hshift hall) s' (by omega) hlast

/-! ## `halt_process` -/

/-- How `halt_process` can end: it has seen the bit, or used up its looks, or a call has failed
    before that. -/
inductive HaltEnds (a : HaltAnswers) : Except SceError SceUID × HaltState → Prop where
  | seen (hbit : a.SeesBit) (res : Except SceError SceUID) (s : HaltState) (hlast : s.Suspended) :
      HaltEnds a (res, s)
  | spent (hgives : a.GivesUp) (s : HaltState) (hlast : ¬ s.Suspended) :
      HaltEnds a (.ok (a.code 1002), s)
  | failed (hbit : ¬ a.SeesBit) (hgives : ¬ a.GivesUp) (err : SceError) (s : HaltState)
      (hlast : ¬ s.Suspended) : HaltEnds a (.error err, s)

/-- Once the bit is seen, the last call decides. -/
theorem HaltEnds.of_seesBit (hbit : a.SeesBit) (hlast : s.Suspended) :
    HaltEnds a (a.call "ksceKernelGetProcessMainThread" s) := by
  rcases a.call_goes "ksceKernelGetProcessMainThread" s with ⟨_, hmain⟩ | ⟨_, hmain⟩
  · rw [hmain]
    exact .seen hbit _ _ hlast
  · rw [hmain]
    exact .seen hbit _ _ hlast

theorem haltProcess_ends (a : HaltAnswers) : HaltEnds a a.haltProcess := by
  -- with the first call, or the second, failed there is nothing more to see
  have hfirst : (a.code 0).slt 0#32 = true → ¬ a.SeesBit ∧ ¬ a.GivesUp := by
    intro hcode
    have hno : ¬ (a.code 0).slt 0#32 = false := by rw [hcode]; simp
    exact ⟨fun h => h.elim (fun h => hno h.1) fun h => hno h.1.1, fun h => hno h.1.1⟩
  rw [haltProcess]
  rcases a.getProcessStatus_goes { calls := 0, last := none } with ⟨hcode, err, hlook⟩ | ⟨hcode, hlook⟩
  · rw [hlook]
    exact .failed (hfirst hcode).1 (hfirst hcode).2 err _ HaltState.not_suspended_none
  rw [hlook]
  dsimp only at hcode ⊢
  by_cases hbit : a.status 0 &&& processStatusSuspended = 0#32
  · have hrunning : a.Running 0 := ⟨hcode, hbit⟩
    have hnot : ¬ a.Sees 0 := hrunning.not_sees
    have hunseen : ∀ calls, ¬ HaltState.Suspended ⟨calls, some (a.status 0)⟩ :=
      fun calls h => HaltState.suspended_some_iff.mp h hbit
    rw [if_pos hbit]
    rcases a.call_goes "ksceKernelSuspendProcess" { calls := 0 + 1, last := some (a.status 0) } with
      ⟨hcode₁, hcall⟩ | ⟨hcode₁, hcall⟩
    · have hno : ¬ (a.code 1).slt 0#32 = false := by rw [show (a.code 1).slt 0#32 = _ from hcode₁]; simp
      rw [hcall]
      exact .failed (fun h => h.elim hnot fun h => hno h.2.1) (fun h => hno h.2.1) _ _ (hunseen _)
    rw [hcall]
    dsimp only
    have hends := a.waitSuspended_ends 1000 { calls := 0 + 1 + 1, last := some (a.status 0) }
      (hunseen _)
    generalize a.waitSuspended 1000 { calls := 0 + 1 + 1, last := some (a.status 0) } = answer at hends
    cases hends with
    | seen i hi hbefore hsees =>
      exact .of_seesBit (.inr ⟨hrunning, hcode₁, i, hi, hbefore, hsees⟩)
        (HaltState.suspended_some_iff.mpr hsees.2)
    | failed i hi hbefore hcode' err s' hlast =>
      have hstop : ¬ (a.code (2 + i)).slt 0#32 = false := by
        rw [show (a.code (2 + i)).slt 0#32 = true from hcode']
        simp
      refine .failed ?_ (fun h => hstop (h.2.2.1 i hi).1) err s' hlast
      rintro (h | ⟨-, -, j, -, hrunning', hsees⟩)
      · exact hnot h
      · -- the failing look is before that one, it, or behind it
        rcases Nat.lt_trichotomy j i with hlt | rfl | hlt
        · exact (hbefore j hlt).not_sees hsees
        · exact hstop hsees.1
        · exact hstop (hrunning' i hlt).1
    | spent hall s' hcalls hlast =>
      have hbit' : ¬ a.SeesBit := by
        rintro (h | ⟨-, -, j, hj, -, hsees⟩)
        · exact hnot h
        · exact (hall j hj).not_sees hsees
      have hcalls : s'.calls = 1002 := hcalls
      dsimp only
      rcases a.call_goes "ksceKernelGetProcessMainThread" s' with ⟨hcode', hmain⟩ | ⟨hcode', hmain⟩
      · rw [hmain]
        rw [hcalls] at hcode'
        refine .failed hbit' (fun h => ?_) _ _ hlast
        exact absurd (h.2.2.2.symm.trans hcode') (by simp)
      · rw [hmain, hcalls]
        rw [hcalls] at hcode'
        exact .spent ⟨hrunning, hcode₁, hall, hcode'⟩ _ hlast
  · rw [if_neg hbit]
    exact .of_seesBit (.inl ⟨hcode, hbit⟩) (HaltState.suspended_some_iff.mpr hbit)

/-- `halt_process` reports success only for a process it has seen halted, unless it gives up. -/
theorem haltProcess_ok_iff (a : HaltAnswers) :
    (∀ tid, a.haltProcess.1 = .ok tid → a.haltProcess.2.Suspended) ↔ ¬ a.GivesUp := by
  have hends := a.haltProcess_ends
  generalize a.haltProcess = answer at hends
  cases hends with
  | seen hbit res s hlast => exact ⟨fun _ h => h.not_seesBit hbit, fun _ _ _ => hlast⟩
  | spent hgives s hlast => exact ⟨fun h => absurd (h _ rfl) hlast, fun h => absurd hgives h⟩
  | failed hbit hgives err s hlast => exact ⟨fun _ => hgives, fun _ _ h => absurd h (by simp)⟩

end HaltAnswers

/-! ## `attach` and the interrupt -/

/-- `interrupt_target`. -/
def HaltAnswers.interruptTarget (a : HaltAnswers) (pid : Option SceUID) :
    Outcome SceError MultiThreadStopReason × HaltState :=
  match pid with
  | none => (.ok (.signal .SIGINT), { calls := 0, last := none })
  | some _ =>
    match a.haltProcess with
    | (.ok tid, s) => (unwrapTid tid >>= fun tid => .ok (.signalWithThread tid .SIGINT), s)
    | (.error _, s) => (.ok (.signal .SIGINT), s)

/-- `ExtendedMode::attach`: whether it returns `Ok`. -/
def HaltAnswers.extendedAttach (a : HaltAnswers) (t : VitaTarget) (w : World) (newPid : SceUID) :
    Bool × HaltState :=
  if newPid = 1#32 || newPid = 0x10005#32 then (false, { calls := 0, last := none })
  else
    let (t, w) := t.detach w
    match t.attach w newPid .attach with
    | (false, _, _) => (false, { calls := 0, last := none })
    | (true, _, _) =>
      match a.haltProcess with
      | (.error _, s) => (false, s)
      | (.ok _, s) => (true, s)

/-- An interrupt that tells gdb of a stop has seen the process halted. -/
theorem interruptTarget_suspended_iff (a : HaltAnswers) (pid : SceUID) :
    (∀ reason, (a.interruptTarget (some pid)).1 = .ok reason →
      (a.interruptTarget (some pid)).2.Suspended) ↔
      a.SeesBit ∨ a.GivesUp ∧ a.code 1002 = 0#32 := by
  have hends := a.haltProcess_ends
  rw [HaltAnswers.interruptTarget]
  generalize a.haltProcess = answer at hends
  cases hends with
  | seen hbit res s hlast =>
    refine ⟨fun _ => .inl hbit, fun _ reason _ => ?_⟩
    cases res <;> exact hlast
  | spent hgives s hlast =>
    dsimp only
    rw [unwrapTid]
    by_cases hzero : a.code 1002 = 0#32
    · rw [if_pos hzero]
      exact ⟨fun _ => .inr ⟨hgives, hzero⟩, fun _ _ h => absurd h (by simp)⟩
    · rw [if_neg hzero]
      refine ⟨fun h => absurd (h _ rfl) hlast, ?_⟩
      rintro (hbit | ⟨-, h⟩)
      · exact absurd hbit hgives.not_seesBit
      · exact absurd h hzero
  | failed hbit hgives err s hlast =>
    refine ⟨fun h => absurd (h _ rfl) hlast, ?_⟩
    rintro (h | ⟨h, -⟩)
    · exact absurd h hbit
    · exact absurd h hgives

/-- An `attach` that returns `Ok` has seen the process halted. -/
theorem extendedAttach_suspended_iff (a : HaltAnswers) (t : VitaTarget) (w : World) (newPid : SceUID) :
    (¬ t.DetachPanics w → (a.extendedAttach t w newPid).1 = true →
      (a.extendedAttach t w newPid).2.Suspended) ↔
      (newPid = 1#32 ∨ newPid = 0x10005#32) ∨ t.DetachPanics w ∨ t.NoSlot w ∨ ¬ a.GivesUp := by
  by_cases hrefused : newPid = 1#32 ∨ newPid = 0x10005#32
  · rw [HaltAnswers.extendedAttach, if_pos (by simpa using hrefused)]
    exact iff_of_true (fun _ h => absurd h (by simp)) (.inl hrefused)
  by_cases hpanics : t.DetachPanics w
  · exact iff_of_true (fun h => absurd hpanics h) (.inr (.inl hpanics))
  rw [or_iff_right hrefused, or_iff_right hpanics, HaltAnswers.extendedAttach,
    if_neg (by simpa using hrefused)]
  dsimp only
  rcases t.attach_detached w newPid .attach with ⟨hnone, heq⟩ | ⟨i, hslot, heq⟩
  · rw [heq]
    exact iff_of_true (fun _ h => absurd h (by simp)) (.inl hnone)
  · have hsome : ¬ t.NoSlot w := by rw [VitaTarget.NoSlot, hslot]; simp
    rw [heq, or_iff_right hsome, ← a.haltProcess_ok_iff]
    dsimp only
    rcases a.haltProcess with ⟨err | tid, s⟩
    · exact ⟨fun _ _ h => absurd h (by simp), fun _ _ h => absurd h (by simp)⟩
    · exact ⟨fun h _ _ => h hpanics rfl, fun h _ _ => h tid rfl⟩

/-- **Success only for a halted process**: exactly where `halt_process` does not give up; and so for
    an `attach` that comes to it.  An interrupt tells gdb of a stop in any case, so there the bit
    has to be seen. -/
theorem haltProcess_suspended_iff (a : HaltAnswers) :
    ((∀ tid, a.haltProcess.1 = .ok tid → a.haltProcess.2.Suspended) ↔ ¬ a.GivesUp) ∧
    (∀ (t : VitaTarget) (w : World) (newPid : SceUID),
      (¬ t.DetachPanics w → (a.extendedAttach t w newPid).1 = true →
        (a.extendedAttach t w newPid).2.Suspended) ↔
      (newPid = 1#32 ∨ newPid = 0x10005#32) ∨ t.DetachPanics w ∨ t.NoSlot w ∨ ¬ a.GivesUp) ∧
    ∀ pid : SceUID,
      (∀ reason, (a.interruptTarget (some pid)).1 = .ok reason →
        (a.interruptTarget (some pid)).2.Suspended) ↔
      a.SeesBit ∨ a.GivesUp ∧ a.code 1002 = 0#32 :=
  ⟨a.haltProcess_ok_iff, extendedAttach_suspended_iff a, interruptTarget_suspended_iff a⟩

/-- A process that never halts, and no call that fails. -/
def neverHalts : HaltAnswers where
  code := fun _ => 0x40010003#32
  status := fun _ => 0#32

/-- A running process that cannot be suspended. -/
def cannotSuspend : HaltAnswers where
  code := fun n => if n = 1 then 0x80020003#32 else 0#32
  status := fun _ => 0#32

/-- **A running process is reported as halted**, by `halt_process`, and by an interrupt whose
    `halt_process` fails. -/
theorem haltProcess_unsuspended :
    (¬ ∀ (a : HaltAnswers) (tid : SceUID), a.haltProcess.1 = .ok tid → a.haltProcess.2.Suspended) ∧
    ¬ ∀ (a : HaltAnswers) (pid : SceUID) (reason : MultiThreadStopReason),
      (a.interruptTarget (some pid)).1 = .ok reason → (a.interruptTarget (some pid)).2.Suspended := by
  constructor
  · intro hclaim
    have hrunning : ∀ n, neverHalts.Running n := fun _ =>
      ⟨rfl, show 0#32 &&& processStatusSuspended = 0#32 by rfl⟩
    have hgives : neverHalts.GivesUp := ⟨hrunning 0, rfl, fun i _ => hrunning (2 + i), rfl⟩
    exact neverHalts.haltProcess_ok_iff.mp (hclaim neverHalts) hgives
  · intro hclaim
    have hsuspended := hclaim cannotSuspend 9#32 (.signal .SIGINT) rfl
    exact HaltState.suspended_some_iff.mp hsuspended rfl

/-! ## The kernel that suspends at once -/

/-- What the kernel of `Kernel.Calls` answers. -/
def Kernel.haltAnswers (k : Kernel) (pid : SceUID) : HaltAnswers where
  code n := k.ret (k.calls + n)
  status n := if n = 0 then k.status pid else k.status pid ||| processHaltStatus

/-- The kernel `k` has become after the calls so far. -/
structure HaltAt (k : Kernel) (k' : Kernel) (s : HaltState) : Prop where
  ret : k'.ret = k.ret
  calls : k'.calls = k.calls + s.calls

variable {k k' : Kernel} {s : HaltState}

theorem HaltAt.next (h : HaltAt k k' s) (last : Option U32) :
    HaltAt k { k' with calls := k'.calls + 1 } { calls := s.calls + 1, last := last } :=
  ⟨h.ret, by show k'.calls + 1 = _; rw [h.calls, Nat.add_assoc]⟩

/-- A call answers the same in both. -/
theorem HaltAt.sceCall (h : HaltAt k k' s) (pid : SceUID) (func : String)
    (effect : Kernel → Kernel) :
    (∃ err, k'.sceCall func effect = (.error err, { k' with calls := k'.calls + 1 }) ∧
      (k.haltAnswers pid).call func s = (.error err, { s with calls := s.calls + 1 })) ∨
    ∃ code, k'.sceCall func effect = (.ok code, effect { k' with calls := k'.calls + 1 }) ∧
      (k.haltAnswers pid).call func s = (.ok code, { s with calls := s.calls + 1 }) := by
  have hcode : k'.ret k'.calls = (k.haltAnswers pid).code s.calls := by
    rw [h.ret, h.calls]
    rfl
  rcases (k.haltAnswers pid).call_goes func s with ⟨hneg, hcall⟩ | ⟨hneg, hcall⟩
  · refine .inl ⟨_, ?_, hcall⟩
    rw [Kernel.sceCall, hcode, if_pos hneg]
  · refine .inr ⟨_, ?_, hcall⟩
    rw [Kernel.sceCall, hcode, if_neg (by rw [hneg]; simp)]

/-- The last call answers the same in both. -/
theorem HaltAt.mainThread (h : HaltAt k k' s) (pid : SceUID) :
    (k'.sceCall "ksceKernelGetProcessMainThread" id).1 =
      ((k.haltAnswers pid).call "ksceKernelGetProcessMainThread" s).1 := by
  rcases h.sceCall pid "ksceKernelGetProcessMainThread" id with ⟨err, hk, ha⟩ | ⟨code, hk, ha⟩
  · rw [hk, ha]
  · rw [hk, ha]

/-- A look at the status answers the same in both. -/
theorem HaltAt.getProcessStatus (h : HaltAt k k' s) (pid : SceUID)
    (hstatus : k'.status pid = (k.haltAnswers pid).status s.calls) :
    (∃ err, k'.getProcessStatus pid = (.error err, { k' with calls := k'.calls + 1 }) ∧
      (k.haltAnswers pid).getProcessStatus s = (.error err, { s with calls := s.calls + 1 })) ∨
    k'.getProcessStatus pid = (.ok (k'.status pid), { k' with calls := k'.calls + 1 }) ∧
      (k.haltAnswers pid).getProcessStatus s =
        (.ok (k'.status pid), { calls := s.calls + 1, last := some (k'.status pid) }) := by
  rw [Kernel.getProcessStatus, HaltAnswers.getProcessStatus]
  rcases h.sceCall pid "ksceKernelGetProcessStatus" id with ⟨err, hk, ha⟩ | ⟨code, hk, ha⟩
  · rw [hk, ha]
    exact .inl ⟨err, rfl, rfl⟩
  · rw [hk, ha, hstatus]
    exact .inr ⟨congrArg (fun status => (Except.ok status, _)) hstatus, rfl⟩

/-- With the process suspended, the loop answers the same in both. -/
theorem HaltAt.waitSuspended (h : HaltAt k k' s) (pid : SceUID) (fuel : Nat)
    (hstatus : k'.status pid = k.status pid ||| processHaltStatus) (hcalls : s.calls ≠ 0) :
    (∃ err k'' s', Kernel.waitSuspended pid fuel k' = (.error err, k'') ∧
      (k.haltAnswers pid).waitSuspended fuel s = (.error err, s')) ∨
    ∃ k'' s', Kernel.waitSuspended pid fuel k' = (.ok (), k'') ∧
      (k.haltAnswers pid).waitSuspended fuel s = (.ok (), s') ∧ HaltAt k k'' s' := by
  induction fuel generalizing k' s with
  | zero => exact .inr ⟨k', s, rfl, rfl, h⟩
  | succ fuel ih =>
    have hsame : k'.status pid = (k.haltAnswers pid).status s.calls :=
      hstatus.trans (if_neg hcalls).symm
    rw [Kernel.waitSuspended, HaltAnswers.waitSuspended]
    rcases h.getProcessStatus pid hsame with ⟨err, hk, ha⟩ | ⟨hk, ha⟩
    · rw [hk, ha]
      exact .inl ⟨err, _, _, rfl, rfl⟩
    · rw [hk, ha]
      dsimp only
      by_cases hbit : k'.status pid &&& processStatusSuspended = 0#32
      · rw [if_neg (by rw [hbit]; simp), if_neg (not_not.mpr hbit)]
        exact ih (h.next _) hstatus (Nat.succ_ne_zero _)
      · rw [if_pos (bne_iff_ne.mpr hbit), if_pos hbit]
        exact .inr ⟨_, _, rfl, rfl, h.next _⟩

/-- **The kernel of `Kernel.Calls` is an oracle**: its `halt_process` answers the same. -/
theorem haltProcess_eq (k : Kernel) (pid : SceUID) :
    (k.haltProcess pid).1 = (k.haltAnswers pid).haltProcess.1 := by
  have hstart : HaltAt k k { calls := 0, last := none } := ⟨rfl, rfl⟩
  rw [Kernel.haltProcess, HaltAnswers.haltProcess]
  rcases hstart.getProcessStatus pid rfl with ⟨err, hk, ha⟩ | ⟨hk, ha⟩
  · rw [hk, ha]
  rw [hk, ha]
  have hlooked := hstart.next (some (k.status pid))
  dsimp only at hlooked ⊢
  by_cases hbit : k.status pid &&& processStatusSuspended = 0#32
  · rw [if_pos (beq_iff_eq.mpr hbit), if_pos hbit, Kernel.ksceKernelSuspendProcess]
    rcases hlooked.sceCall pid "ksceKernelSuspendProcess" fun k =>
      { k with status := Function.update k.status pid (k.status pid ||| processHaltStatus) } with
      ⟨err, hk, ha⟩ | ⟨code, hk, ha⟩
    · rw [hk, ha]
    rw [hk, ha]
    have hsuspended : HaltAt k
        { k with
          calls := k.calls + 1 + 1
          status := Function.update k.status pid (k.status pid ||| processHaltStatus) }
        { calls := 0 + 1 + 1, last := some (k.status pid) } := ⟨rfl, rfl⟩
    rcases hsuspended.waitSuspended pid 1000 (Function.update_self ..) (by simp) with
      ⟨err, k', s', hk, ha⟩ | ⟨k', s', hk, ha, h⟩
    · dsimp only
      rw [hk, ha]
    · dsimp only
      rw [hk, ha]
      exact h.mainThread pid
  · rw [if_neg (by rwa [beq_iff_eq]), if_neg hbit]
    exact hlooked.mainThread pid

/-- And so does the interrupt. -/
theorem interruptTarget_eq (k : Kernel) (pid : SceUID) :
    (VitaGdb.interruptTarget k (some pid)).1 =
      ((k.haltAnswers pid).interruptTarget (some pid)).1 := by
  have heq := haltProcess_eq k pid
  rw [VitaGdb.interruptTarget, HaltAnswers.interruptTarget]
  generalize (k.haltAnswers pid).haltProcess = answer at heq
  obtain ⟨res, s⟩ := answer
  rcases hhalt : k.haltProcess pid with ⟨err | tid, k'⟩ <;> rw [hhalt] at heq <;> subst heq <;> rfl

/-- And so does `attach`, whose `halt_process` meets the kernel that `detach` has left. -/
theorem extendedAttach_eq (t : VitaTarget) (w : World) (newPid : SceUID) :
    (t.extendedAttach w newPid).1 =
      (((t.detach w).2.kernel.haltAnswers newPid).extendedAttach t w newPid).1 := by
  have heq := haltProcess_eq (t.detach w).2.kernel newPid
  rw [VitaTarget.extendedAttach, HaltAnswers.extendedAttach]
  by_cases hrefused : newPid = 1#32 ∨ newPid = 0x10005#32
  · rw [if_pos (by simpa using hrefused), if_pos (by simpa using hrefused)]
  rw [if_neg (by simpa using hrefused), if_neg (by simpa using hrefused)]
  dsimp only
  rcases t.attach_detached w newPid .attach with ⟨-, hattach⟩ | ⟨i, -, hattach⟩ <;> rw [hattach]
  dsimp only
  generalize ((t.detach w).2.kernel.haltAnswers newPid).haltProcess = answer at heq
  obtain ⟨res, s⟩ := answer
  rcases hhalt : (t.detach w).2.kernel.haltProcess newPid with ⟨err | tid, k'⟩ <;>
    rw [hhalt] at heq <;> subst heq <;> rfl

end VitaGdb
