/-
  Launch: whether `run` hears that its process has started.

  `run` makes the launch call, detaches, attaches to the process it was answered, and waits for
  `EV_PROCESS_STARTED`.  The kernel calls `handle_proc_create` for that process at any moment from
  the start of the launch call on; it looks for the process in the pool and sets the bit on the
  event flag it finds there.  `Launches` keeps, beside the threads, which calls are for the
  process of which run, and what has come of them.

  So there are two races.  The process is in the pool only after the launch call has returned, and
  its event flag later still: a call that comes before finds nobody, and `run` waits until its
  time limit is over (`start_missed`).  And a bit that nobody has waited for stays: `reset` clears
  `EV_WAKE_WORKER` only, so a notification that comes after the time limit answers the next run.
  `InTime` is the runs without either.
-/
import VitaGdb.Gdb.Threads

namespace VitaGdb

variable {H C : Type}

/-! ## Runs under way -/

/-- The process that is to be attached to after a launch. -/
def launched : Option (SceUID × AttachKind) → Option SceUID
  | some (pid, .run) => some pid
  | _ => none

/-- The process of the `run` the worker is in, from the launch call to the end of the wait. -/
def WorkerPc.running : WorkerPc C → Option SceUID
  | .launching pid | .starting pid => some pid
  | .attaching pid kind _ | .claimed pid kind => launched (some (pid, kind))
  | .resetting _ next => launched next
  | _ => none

/-- `EV_PROCESS_STARTED` is set. -/
def Threads.started (x : Threads H C) (c : C) : Bool := hasBit (x.flags c) evProcessStarted

/-- A call that is over: it has returned, or found no session. -/
def CallbackPc.ended : CallbackPc C → Bool
  | .returned | .missed => true
  | _ => false

/-- Which calls of `handle_proc_create` were made for the process of a connection's run, since its
    launch began; whether one has returned, and whether one has set the connection's event flag. -/
structure Launches (H C : Type) where
  ofRun : H → C → Bool
  returned : C → Bool
  heard : C → Bool

/-- Nothing has been launched yet. -/
def Launches.start : Launches H C where
  ofRun := fun _ _ => false
  returned := fun _ => false
  heard := fun _ => false

variable [DecidableEq H] [DecidableEq C]

/-- A launch begins: what was known of the run before is forgotten. -/
def Launches.launch (l : Launches H C) (c : C) : Launches H C where
  ofRun := fun h => Function.update (l.ofRun h) c false
  returned := Function.update l.returned c false
  heard := Function.update l.heard c false

/-- A process is created. -/
def Launches.create (l : Launches H C) (x : Threads H C) (h : H) (pid : SceUID) : Launches H C :=
  { l with ofRun := Function.update l.ofRun h fun c => decide ((x.workers c).pc.running = some pid) }

/-- A callback has gone from `pc` to `pc'`. -/
def Launches.handled (l : Launches H C) (h : H) (pc pc' : CallbackPc C) : Launches H C :=
  { l with
    returned := fun c => l.returned c || (l.ofRun h c && pc'.ended)
    heard := match pc with
      | .settingStarted c => Function.update l.heard c (l.heard c || l.ofRun h c)
      | _ => l.heard }

def Launches.after (l : Launches H C) (x y : Threads H C) : ThreadEvent H C → Launches H C
  | .enter h pid _ .create => l.create x h pid
  | .handler h =>
    match x.handlers h, y.handlers h with
    | some hd, some hd' => l.handled h hd.pc hd'.pc
    | _, _ => l
  | .worker c (.launch _) => l.launch c
  | _ => l

/-- One atomic step, with what it means for the launches. -/
def launchStep (z : Threads H C × Launches H C) (e : ThreadEvent H C) :
    Option (Threads H C × Launches H C) :=
  (threadStep z.1 e).map fun y => (y, z.2.after z.1 y e)

/-- What the waits of `run` hear. -/
structure HearsStart (x : Threads H C) (l : Launches H C) : Prop where
  /-- The callback for the process has returned before the time limit: the wait does not time out,
      and `run` returns the process. -/
  inTime : ∀ c pid, (x.workers c).pc = .starting pid → l.returned c = true →
    workerEvent x c .timeout = none ∧
      ∃ y, workerEvent x c .step = some y ∧ (y.workers c).pc = .outside
  /-- The wait ends for a notification of the process of this run only. -/
  own : ∀ c pid y, (x.workers c).pc = .starting pid → workerEvent x c .step = some y →
    l.heard c = true

/-! ## The condition -/

/-- A callback for a run finds the process in the pool and its event flag stored; and it sets the
    bit only for a run that it is for and that is under way. -/
def ComesInTime (x : Threads H C) (l : Launches H C) (h : H) (hd : Callback C) : Prop :=
  match hd.pc with
  | .scanning _ => (∃ c, l.ofRun h c = true) →
      (x.slots hd.slot).pid = hd.pid ∨ nextSlot hd.slot ≠ none
  | .starting => ∀ c, l.ofRun h c = true → (x.slots hd.slot).evflag = some c
  | .settingStarted c => l.ofRun h c = true ∧ (x.workers c).pc.running ≠ none
  | _ => True

/-- Callbacks come in time, and a run that fails before its wait leaves no bit behind. -/
def InTime (z : Threads H C × Launches H C) : ThreadEvent H C → Prop
  | .handler h => ∀ hd ∈ z.1.handlers h, ComesInTime z.1 z.2 h hd
  | .worker c .launchFailed => z.1.started c = false
  | .worker c .step =>
    match (z.1.workers c).pc with
    | .attaching _ .run slot =>
      (z.1.slots slot).pid ≠ pidUnused → nextSlot slot = none → z.1.started c = false
    | _ => True
  | _ => True

/-! ## What a step moves -/

section Moves

variable {x y : Threads H C} {c : C}

omit [DecidableEq H] in
theorem started_setFlag_other (x : Threads H C) (c : C) {bits : U32}
    (hbits : bits &&& evProcessStarted = 0#32) (d : C) :
    (x.setFlag c bits).started d = x.started d := by
  show hasBit (Function.update x.flags c (x.flags c ||| bits) d) evProcessStarted = _
  by_cases hd : d = c
  · rw [hd, Function.update_self]
    exact hasBit_or_other hbits _
  · rw [Function.update_of_ne hd]
    rfl

omit [DecidableEq H] in
theorem started_clearFlag_other (x : Threads H C) (c : C) {bits : U32}
    (hbits : bits &&& evProcessStarted = 0#32) (d : C) :
    (x.clearFlag c bits).started d = x.started d := by
  show hasBit (Function.update x.flags c (x.flags c &&& ~~~bits) d) evProcessStarted = _
  by_cases hd : d = c
  · rw [hd, Function.update_self]
    exact hasBit_clear_other hbits _
  · rw [Function.update_of_ne hd]
    rfl

omit [DecidableEq H] [DecidableEq C] in
/-- A callback sets `EV_WAKE_WORKER`, or it is `handle_proc_create` at its end. -/
theorem callbackPc_sets [DecidableEq H] {h : H} {tid : SceUID} {s s' : ThreadSlot H C}
    {pc pc' : CallbackPc C} {set : Option (C × U32)} (hstep : pc.step h tid s = some (s', pc', set)) :
    set = none ∨ (∃ c, set = some (c, evWakeWorker)) ∨
      ∃ c, set = some (c, evProcessStarted) ∧ pc = .settingStarted c := by
  cases callbackPc_goes hstep with
  | overflows evflag => exact .inr (.inl ⟨evflag, rfl⟩)
  | sets evflag => exact .inr (.inl ⟨evflag, rfl⟩)
  | setsStarted evflag => exact .inr (.inr ⟨evflag, rfl, rfl⟩)
  | _ => exact .inl rfl

omit [DecidableEq H] in
/-- Neither the socket nor the receive thread sets or clears the bit. -/
theorem socketStep_started {e : ConnEvent} (h : socketStep x c e = some y) (d : C) :
    y.started d = x.started d := by
  unfold socketStep at h
  split at h
  · split at h
    · rw [Option.map_eq_some_iff] at h
      obtain ⟨r, -, rfl⟩ := h
      exact started_clearFlag_other x c (by decide) d
    · exact absurd h (by simp)
  · rw [Option.map_eq_some_iff] at h
    obtain ⟨r, -, rfl⟩ := h
    exact started_setFlag_other x c (by decide) d
  · rw [Option.map_eq_some_iff] at h
    obtain ⟨r, -, rfl⟩ := h
    exact started_setFlag_other x c (by decide) d
  · exact absurd h (by simp)
  · exact absurd h (by simp)
  · exact absurd h (by simp)
  · rw [Option.map_eq_some_iff] at h
    obtain ⟨r, -, rfl⟩ := h
    rfl

omit [DecidableEq H] in
theorem running_detachThen (x : Threads H C) (c : C) (next : Option (SceUID × AttachKind)) :
    ((x.detachThen c next).workers c).pc.running = launched next := by
  unfold Threads.detachThen
  split
  · simp [Threads.moveTo, Threads.setWorker, WorkerPc.running]
  · simp [Threads.moveTo, Threads.setWorker, WorkerPc.running]
  · simp [Threads.moveTo, Threads.setWorker, WorkerPc.running, launched]

omit [DecidableEq H] in
theorem flags_detachThen (x : Threads H C) (c : C) (next : Option (SceUID × AttachKind)) :
    (x.detachThen c next).flags = x.flags := by
  unfold Threads.detachThen
  split <;> rfl

/-- A worker's step, for its run: it is in the same run, or in none, as before, and the bit stays;
    or its run is over, and the bit is not set. -/
def RunMoves (x : Threads H C) (c : C) (y : Threads H C) : Prop :=
  (∀ d, d ≠ c → y.started d = x.started d) ∧
    ((y.workers c).pc.running = (x.workers c).pc.running ∧ y.started c = x.started c ∨
      (y.workers c).pc.running = none ∧ y.started c = false)

omit [DecidableEq H] [DecidableEq C] in
theorem RunMoves.same (hrunning : (y.workers c).pc.running = (x.workers c).pc.running)
    (hstarted : ∀ d, y.started d = x.started d) : RunMoves x c y :=
  ⟨fun d _ => hstarted d, .inl ⟨hrunning, hstarted c⟩⟩

omit [DecidableEq H] [DecidableEq C] in
theorem RunMoves.over (hrunning : (y.workers c).pc.running = none)
    (hothers : ∀ d, d ≠ c → y.started d = x.started d) (hstarted : y.started c = false) :
    RunMoves x c y :=
  ⟨hothers, .inr ⟨hrunning, hstarted⟩⟩

omit [DecidableEq H] in
/-- Where a worker goes on. -/
@[simp] theorem workers_moveTo (x : Threads H C) (c : C) (pc : WorkerPc C) :
    ((x.moveTo c pc).workers c).pc = pc := by
  simp [Threads.moveTo, Threads.setWorker]

omit [DecidableEq H] in
@[simp] theorem workers_setWorker (x : Threads H C) (c : C) (w : WorkerThread C) :
    (x.setWorker c w).workers c = w := by
  simp [Threads.setWorker]

/-- A step of `reset`. -/
theorem resetStep_runs {i : Fin 4} {next : Option (SceUID × AttachKind)} {phase : ResetPhase C}
    (hpc : (x.workers c).pc = .resetting phase next) (h : resetStep x c i next phase = some y) :
    RunMoves x c y := by
  cases phase with
  | loadFlag =>
    simp only [resetStep] at h
    split at h
    · obtain rfl := Option.some.inj h
      exact .same (by simp [hpc, WorkerPc.running]) fun _ => rfl
    · obtain rfl := Option.some.inj h
      exact .same (by simp [hpc, WorkerPc.running]) fun _ => rfl
  | clearFlag d =>
    obtain rfl := Option.some.inj h
    exact .same (by simp [hpc, WorkerPc.running])
      (started_clearFlag_other x d (by decide))
  | clearExceptions =>
    simp only [resetStep, Option.map_eq_some_iff] at h
    obtain ⟨ring, -, rfl⟩ := h
    refine .same ?_ fun _ => rfl
    rw [workers_moveTo, hpc]
    split <;> rfl
  | storePid =>
    obtain rfl := Option.some.inj h
    refine .same ?_ fun _ => rfl
    rw [workers_setWorker, hpc]
    cases next with
    | none => rfl
    | some next => rfl
  | _ =>
    obtain rfl := Option.some.inj h
    exact .same (by simp [hpc, WorkerPc.running]) fun _ => rfl

/-- **A step of a worker**, for its run. -/
theorem workerStep_runs (h : workerStep x c = some y)
    (hfails : ∀ pid slot, (x.workers c).pc = .attaching pid .run slot →
      (x.slots slot).pid ≠ pidUnused → nextSlot slot = none → x.started c = false) :
    RunMoves x c y := by
  cases workerStep_goes h with
  | launched pid hpc =>
    refine .same ?_ fun d => ?_
    · rw [running_detachThen, hpc]
      rfl
    · rw [Threads.started, flags_detachThen]
      rfl
  | claims pid kind slot hpc => exact .same (by simp [hpc, WorkerPc.running]) fun _ => rfl
  | tries pid kind slot slot' hpc => exact .same (by simp [hpc, WorkerPc.running]) fun _ => rfl
  | givesUp pid kind slot hpc hused hlast =>
    cases kind with
    | attach => exact .same (by simp [hpc, WorkerPc.running, launched]) fun _ => rfl
    | run =>
      exact .over (by simp [WorkerPc.running]) (fun _ _ => rfl) (hfails pid slot hpc hused hlast)
  | publishes pid kind i hpc =>
    refine .same ?_ fun _ => rfl
    rw [workers_setWorker, hpc]
    cases kind <;> rfl
  | started pid hpc =>
    refine .over (by simp [WorkerPc.running]) (fun d hd => ?_) ?_
    · show hasBit (Function.update x.flags c _ d) evProcessStarted = _
      rw [Function.update_of_ne hd]
      rfl
    · show hasBit (Function.update x.flags c _ c) evProcessStarted = false
      rw [Function.update_self]
      exact hasBit_clear_self _ _
  | hasDetached hpc => exact .same (by simp [hpc, WorkerPc.running]) fun _ => rfl
  | noSession turn hpc => exact .same (by simp [hpc, WorkerPc.running]) fun _ => rfl
  | exited turn i hpc => exact .same (by simp [hpc, WorkerPc.running]) fun _ => rfl
  | looksForStep i hpc => exact .same (by simp [hpc, WorkerPc.running]) fun _ => rfl
  | looksForByte i hpc => exact .same (by simp [hpc, WorkerPc.running]) fun _ => rfl
  | takesStep i stepTid hpc => exact .same (by simp [hpc, WorkerPc.running]) fun _ => rfl
  | noStep i hpc => exact .same (by simp [hpc, WorkerPc.running]) fun _ => rfl
  | pops i ring hpc =>
    refine .same ?_ fun _ => rfl
    rw [workers_moveTo, hpc]
    unfold WorkerPc.afterPop
    split <;> rfl
  | calls turn answer r hpc => exact .same (by simp [hpc, WorkerPc.running]) fun _ => rfl
  | wakesReader turn byte r hpc =>
    exact .same (by simp [hpc, WorkerPc.running]) (started_setFlag_other x c (by decide))
  | reads turn reading r hpc =>
    refine .same ?_ fun _ => rfl
    rw [workers_moveTo, hpc]
    unfold WorkerPc.afterRead
    split <;> rfl
  | woken turn hpc =>
    exact .same (by simp [hpc, WorkerPc.running]) (started_clearFlag_other x c (by decide))
  | resets phase next i _ hpc hi hreset => exact resetStep_runs hpc hreset

/-- **Any event of a worker** but the beginning of a launch, for its run. -/
theorem workerEvent_runs {e : WorkerEvent} (h : workerEvent x c e = some y)
    (hlaunch : ∀ pid, e ≠ .launch pid)
    (hfailed : e = .launchFailed → x.started c = false)
    (hfails : e = .step → ∀ pid slot, (x.workers c).pc = .attaching pid .run slot →
      (x.slots slot).pid ≠ pidUnused → nextSlot slot = none → x.started c = false) :
    RunMoves x c y := by
  unfold workerEvent at h
  split at h
  · exact workerStep_runs h (hfails rfl)
  · rename_i hpc
    obtain rfl := Option.some.inj h
    exact .same (by simp [hpc, WorkerPc.running]) fun _ => rfl
  · rename_i hpc
    obtain rfl := Option.some.inj h
    exact .same (by rw [running_detachThen, hpc]; rfl) fun d => by
      rw [Threads.started, flags_detachThen]
      rfl
  · rename_i hpc
    split at h
    · exact absurd h (by simp)
    · obtain rfl := Option.some.inj h
      exact .same (by rw [running_detachThen, hpc]; rfl) fun d => by
        rw [Threads.started, flags_detachThen]
        rfl
  · exact absurd rfl (hlaunch _)
  · obtain rfl := Option.some.inj h
    exact .over (by simp [WorkerPc.running]) (fun _ _ => rfl) (hfailed rfl)
  · rename_i hpc
    split at h
    · obtain rfl := Option.some.inj h
      exact .same (by simp [hpc, WorkerPc.running]) fun _ => rfl
    · exact absurd h (by simp)
  · split at h
    · exact absurd h (by simp)
    · rename_i hset
      obtain rfl := Option.some.inj h
      refine .over (by rw [running_detachThen]; rfl) (fun d _ => ?_) ?_
      · rw [Threads.started, flags_detachThen]
        rfl
      · rw [Threads.started, flags_detachThen]
        exact Bool.eq_false_iff.mpr hset
  · exact absurd h (by simp)

end Moves

/-! ## The invariant -/

/-- Where a call of `handle_proc_create` for the run of a connection can be: it does not miss it. -/
def CallbackPc.Notifies (c : C) : CallbackPc C → Prop
  | .scanning entry => entry = .create
  | .starting | .returned => True
  | .settingStarted d => d = c
  | _ => False

/-- What holds of the launches at every moment of a run that is in time. -/
structure Notified (x : Threads H C) (l : Launches H C) : Prop where
  calls : ∀ h c, l.ofRun h c = true → ∃ hd, x.handlers h = some hd ∧ hd.pc.Notifies c
  /-- A call that has returned has set the bit, and the bit stays until the wait. -/
  returned : ∀ c, l.returned c = true → (x.workers c).pc.running ≠ none → x.started c = true
  /-- The bit is set by a call for the run that is under way. -/
  heard : ∀ c, x.started c = true → l.heard c = true ∧ (x.workers c).pc.running ≠ none

variable {x y : Threads H C} {l : Launches H C}

omit [DecidableEq H] [DecidableEq C] in
theorem notified_start (states : C → ConnState) :
    Notified (Threads.start states : Threads H C) .start where
  calls := fun _ _ h => absurd h (by simp [Launches.start])
  returned := fun _ h => absurd h (by simp [Launches.start])
  heard := fun c h => by
    have hclear : (Threads.start states : Threads H C).started c = false := by
      show hasBit 0 evProcessStarted = false
      decide
    exact absurd (hclear.symm.trans h) (by simp)

omit [DecidableEq C] in
/-- A callback is called. -/
theorem Notified.enter (hx : Notified x l) {h : H} {hd : Callback C} (hnone : x.handlers h = none) :
    Notified (x.setHandler h hd) l where
  calls := by
    intro h' c hof
    obtain ⟨hd', hhd', hnotifies⟩ := hx.calls h' c hof
    have hne : h' ≠ h := by
      rintro rfl
      exact absurd (hnone.symm.trans hhd') (by simp)
    exact ⟨hd', (x.setHandler_of_ne hne _).trans hhd', hnotifies⟩
  returned := hx.returned
  heard := hx.heard

omit [DecidableEq C] in
/-- A process is created. -/
theorem Notified.create (hx : Notified x l) {h : H} {pid tid : SceUID} (hnone : x.handlers h = none) :
    Notified (x.setHandler h { pid := pid, tid := tid, slot := 0, pc := .scanning .create })
      (l.create x h pid) where
  calls := by
    intro h' c hof
    by_cases hne : h' = h
    · subst hne
      exact ⟨_, x.setHandler_self _ _, rfl⟩
    · refine (hx.enter hnone).calls h' c ?_
      simpa only [Launches.create, Function.update_of_ne hne] using hof
  returned := hx.returned
  heard := hx.heard

/-- A call compares its slot: one for a run does not miss it. -/
theorem Notified.scan (hx : Notified x l) {h : H} {hd hd' : Callback C} {entry : Entry}
    (hh : x.handlers h = some hd) (hpc : hd.pc = .scanning entry)
    (hfound : (∃ c, l.ofRun h c = true) → (x.slots hd.slot).pid = hd.pid ∨ nextSlot hd.slot ≠ none)
    (hcases : hd' = { hd with pc := entry.pc } ∧ (x.slots hd.slot).pid = hd.pid ∨
      (∃ slot, hd' = { hd with slot := slot }) ∨
      hd' = { hd with pc := .missed } ∧ (x.slots hd.slot).pid ≠ hd.pid ∧ nextSlot hd.slot = none) :
    Notified (x.setHandler h hd') (l.handled h hd.pc hd'.pc) := by
  have hgoesOn : (∃ c, l.ofRun h c = true) → hd'.pc.ended = false := by
    intro hof
    rcases hcases with ⟨rfl, -⟩ | ⟨slot, rfl⟩ | ⟨rfl, hpid, hlast⟩
    · cases entry <;> rfl
    · rw [hpc]
      rfl
    · rcases hfound hof with hpid' | hnext
      · exact absurd hpid' hpid
      · exact absurd hlast hnext
  refine ⟨fun h' c hof => ?_, fun c hreturned => ?_, fun c hset => ?_⟩
  · obtain ⟨hd₁, hhd₁, hnotifies⟩ := hx.calls h' c hof
    by_cases hne : h' = h
    · subst hne
      obtain rfl := Option.some.inj (hh.symm.trans hhd₁)
      rw [hpc] at hnotifies
      refine ⟨hd', x.setHandler_self _ _, ?_⟩
      rcases hcases with ⟨rfl, -⟩ | ⟨slot, rfl⟩ | ⟨rfl, hpid, hlast⟩
      · obtain rfl : entry = .create := hnotifies
        trivial
      · rw [hpc]
        exact hnotifies
      · rcases hfound ⟨c, hof⟩ with hpid' | hnext
        · exact absurd hpid' hpid
        · exact absurd hlast hnext
    · exact ⟨hd₁, (x.setHandler_of_ne hne _).trans hhd₁, hnotifies⟩
  · simp only [Launches.handled, Bool.or_eq_true, Bool.and_eq_true] at hreturned
    rcases hreturned with hreturned | ⟨hof, hended⟩
    · exact hx.returned c hreturned
    · exact absurd hended (by simp [hgoesOn ⟨c, hof⟩])
  · obtain ⟨hheard, hrunning⟩ := hx.heard c hset
    refine ⟨?_, hrunning⟩
    rw [hpc]
    exact hheard

omit [DecidableEq H] in
/-- What a callback sets, for the bit of a connection. -/
theorem started_setBits (x : Threads H C) {pc : CallbackPc C} {set : Option (C × U32)}
    (hset : set = none ∨ (∃ d, set = some (d, evWakeWorker)) ∨
      ∃ d, set = some (d, evProcessStarted) ∧ pc = .settingStarted d) (c : C) :
    (x.started c = true → (x.setBits set).started c = true) ∧
      ((x.setBits set).started c = true → x.started c = true ∨ pc = .settingStarted c) := by
  rcases hset with rfl | ⟨d, rfl⟩ | ⟨d, rfl, hpc⟩
  · exact ⟨id, .inl⟩
  · have hsame : (x.setBits (some (d, evWakeWorker))).started c = x.started c :=
      started_setFlag_other x d (by decide) c
    rw [hsame]
    exact ⟨id, .inl⟩
  · by_cases hc : c = d
    · rw [hc]
      refine ⟨fun _ => ?_, fun _ => .inr hpc⟩
      show hasBit (Function.update x.flags d (x.flags d ||| evProcessStarted) d) _ = true
      rw [Function.update_self]
      exact hasBit_or_self (by decide) _
    · have hsame : (x.setBits (some (d, evProcessStarted))).started c = x.started c := by
        show hasBit (Function.update x.flags d _ c) _ = hasBit (x.flags c) _
        rw [Function.update_of_ne hc]
      rw [hsame]
      exact ⟨id, .inl⟩

/-- The next step of a call that has found its slot. -/
theorem Notified.call (hx : Notified x l) {h : H} {hd : Callback C} {s : ThreadSlot H C}
    {pc : CallbackPc C} {set : Option (C × U32)} (hh : x.handlers h = some hd)
    (hstep : hd.pc.step h hd.tid (x.slots hd.slot) = some (s, pc, set))
    (hflag : hd.pc = .starting → ∀ c, l.ofRun h c = true → (x.slots hd.slot).evflag = some c)
    (hown : ∀ c, hd.pc = .settingStarted c → l.ofRun h c = true ∧ (x.workers c).pc.running ≠ none) :
    Notified (((x.setSlot hd.slot s).setBits set).setHandler h { hd with pc := pc })
      (l.handled h hd.pc pc) := by
  have hbits := started_setBits (x.setSlot hd.slot s) (callbackPc_sets hstep)
  -- where a call of a run is next, and what it has set when it returns
  have hnext : ∀ c, l.ofRun h c = true → pc.Notifies c ∧
      (pc.ended = true → ((x.setSlot hd.slot s).setBits set).started c = true) := by
    intro c hof
    obtain ⟨hd₁, hhd₁, hnotifies⟩ := hx.calls h c hof
    obtain rfl := Option.some.inj (hh.symm.trans hhd₁)
    cases hpc : hd.pc with
    | scanning entry => simp [hpc, CallbackPc.step] at hstep
    | returned => simp [hpc, CallbackPc.step] at hstep
    | starting =>
      simp only [hpc, CallbackPc.step, hflag hpc c hof, Option.some.injEq, Prod.mk.injEq] at hstep
      obtain ⟨-, rfl, -⟩ := hstep
      exact ⟨rfl, fun hended => absurd hended (by simp [CallbackPc.ended])⟩
    | settingStarted d =>
      rw [hpc] at hnotifies
      obtain rfl : d = c := hnotifies
      simp only [hpc, CallbackPc.step, Option.some.injEq, Prod.mk.injEq] at hstep
      obtain ⟨-, rfl, rfl⟩ := hstep
      refine ⟨trivial, fun _ => ?_⟩
      show hasBit (Function.update x.flags d (x.flags d ||| evProcessStarted) d) _ = true
      rw [Function.update_self]
      exact hasBit_or_self (by decide) _
    | _ =>
      rw [hpc] at hnotifies
      exact absurd hnotifies id
  refine ⟨fun h' c hof => ?_, fun c hreturned hrunning => ?_, fun c hset => ?_⟩
  · by_cases hne : h' = h
    · subst hne
      exact ⟨_, Threads.setHandler_self _ _ _, (hnext c hof).1⟩
    · obtain ⟨hd₁, hhd₁, hnotifies⟩ := hx.calls h' c hof
      refine ⟨hd₁, (Threads.setHandler_of_ne _ hne _).trans ?_, hnotifies⟩
      cases set with
      | none => exact hhd₁
      | some set => exact hhd₁
  · have hworkers : (((x.setSlot hd.slot s).setBits set).setHandler h
        { hd with pc := pc }).workers = x.workers := by
      cases set <;> rfl
    rw [hworkers] at hrunning
    simp only [Launches.handled, Bool.or_eq_true, Bool.and_eq_true] at hreturned
    rcases hreturned with hreturned | ⟨hof, hended⟩
    · exact (hbits c).1 (hx.returned c hreturned hrunning)
    · exact (hnext c hof).2 hended
  · have hworkers : (((x.setSlot hd.slot s).setBits set).setHandler h
        { hd with pc := pc }).workers = x.workers := by
      cases set <;> rfl
    rw [hworkers]
    rcases (hbits c).2 hset with hset | hpc
    · obtain ⟨hheard, hrunning⟩ := hx.heard c hset
      refine ⟨?_, hrunning⟩
      unfold Launches.handled
      cases hd.pc with
      | settingStarted d =>
        show Function.update l.heard d _ c = true
        by_cases hc : c = d
        · subst hc
          rw [Function.update_self, hheard, Bool.true_or]
        · rw [Function.update_of_ne hc, hheard]
      | _ => exact hheard
    · obtain ⟨hof, hrunning⟩ := hown c hpc
      refine ⟨?_, hrunning⟩
      simp [Launches.handled, hpc, hof]

omit [DecidableEq H] in
/-- The socket and the receive threads take no part. -/
theorem Notified.socket (hx : Notified x l) {d : C} {e : ConnEvent}
    (h : socketStep x d e = some y) : Notified y l := by
  have hmoves := socketStep_moves h
  have hstarted := socketStep_started h
  refine ⟨fun h' c hof => ?_, fun c hreturned hrunning => ?_, fun c hset => ?_⟩
  · rw [hmoves.handlers]
    exact hx.calls h' c hof
  · rw [hmoves.workers] at hrunning
    rw [hstarted]
    exact hx.returned c hreturned hrunning
  · rw [hmoves.workers]
    rw [hstarted] at hset
    exact hx.heard c hset

omit [DecidableEq H] in
/-- A worker goes on with its run, or its run is over and no bit is left. -/
theorem Notified.worker (hx : Notified x l) {d : C} (hhandlers : y.handlers = x.handlers)
    (hworkers : ∀ c, c ≠ d → y.workers c = x.workers c) (hruns : RunMoves x d y) : Notified y l := by
  obtain ⟨hothers, hown⟩ := hruns
  refine ⟨fun h' c hof => ?_, fun c hreturned hrunning => ?_, fun c hset => ?_⟩
  · rw [hhandlers]
    exact hx.calls h' c hof
  · by_cases hc : c = d
    · subst hc
      rcases hown with ⟨hsame, hstarted⟩ | ⟨hnone, -⟩
      · rw [hsame] at hrunning
        rw [hstarted]
        exact hx.returned c hreturned hrunning
      · exact absurd hnone hrunning
    · rw [hworkers c hc] at hrunning
      rw [hothers c hc]
      exact hx.returned c hreturned hrunning
  · by_cases hc : c = d
    · subst hc
      rcases hown with ⟨hsame, hstarted⟩ | ⟨-, hclear⟩
      · rw [hsame]
        rw [hstarted] at hset
        exact hx.heard c hset
      · exact absurd (hclear.symm.trans hset) (by simp)
    · rw [hworkers c hc]
      rw [hothers c hc] at hset
      exact hx.heard c hset

omit [DecidableEq H] in
/-- A launch begins, where no run is under way. -/
theorem Notified.launch (hx : Notified x l) {d : C} (hidle : (x.workers d).pc.running = none)
    (hhandlers : y.handlers = x.handlers) (hworkers : ∀ c, c ≠ d → y.workers c = x.workers c)
    (hstarted : ∀ c, y.started c = x.started c) : Notified y (l.launch d) := by
  refine ⟨fun h' c hof => ?_, fun c hreturned hrunning => ?_, fun c hset => ?_⟩
  · rw [hhandlers]
    by_cases hc : c = d
    · simp [Launches.launch, hc] at hof
    · simp only [Launches.launch, Function.update_of_ne hc] at hof
      exact hx.calls h' c hof
  · by_cases hc : c = d
    · simp [Launches.launch, hc] at hreturned
    · simp only [Launches.launch, Function.update_of_ne hc] at hreturned
      rw [hworkers c hc] at hrunning
      rw [hstarted]
      exact hx.returned c hreturned hrunning
  · rw [hstarted] at hset
    obtain ⟨hheard, hrunning⟩ := hx.heard c hset
    have hc : c ≠ d := by
      rintro rfl
      exact hrunning hidle
    refine ⟨?_, by rwa [hworkers c hc]⟩
    simpa only [Launches.launch, Function.update_of_ne hc] using hheard

/-- While `run` waits, what it hears. -/
theorem Notified.hearsStart (hx : Notified x l) : HearsStart x l where
  inTime := by
    intro c pid hpc hreturned
    have hset : hasBit (x.flags c) evProcessStarted = true :=
      hx.returned c hreturned (by simp [hpc, WorkerPc.running])
    refine ⟨by simp [workerEvent, hpc, hset],
      (x.clearFlag c evProcessStarted).moveTo c .outside, ?_, workers_moveTo _ _ _⟩
    simp only [workerEvent, workerStep, hpc, hset, if_true]
  own := by
    intro c pid y hpc hstep
    simp only [workerEvent, workerStep, hpc] at hstep
    split at hstep
    · rename_i hset
      exact (hx.heard c hset).1
    · exact absurd hstep (by simp)

theorem workerEvent_others {d : C} {e : WorkerEvent} (h : workerEvent x d e = some y) (c : C)
    (hc : c ≠ d) : y.workers c = x.workers c := by
  rcases workerEvent_moves h with hmoves | ⟨i, pid, kind, -, -, rfl⟩ | ⟨d', next, -, rfl⟩
  · exact hmoves.workers c hc
  · exact Function.update_of_ne hc _ _
  · exact Function.update_of_ne hc _ _

/-- **One step** of a run that is in time. -/
theorem launchStep_notified {z z' : Threads H C × Launches H C} {e : ThreadEvent H C}
    (hz : Notified z.1 z.2) (hin : InTime z e) (h : launchStep z e = some z') :
    Notified z'.1 z'.2 := by
  rw [launchStep, Option.map_eq_some_iff] at h
  obtain ⟨y, hy, rfl⟩ := h
  cases e with
  | enter h pid tid entry =>
    obtain ⟨hnone, -, rfl⟩ := threadStep_enter hy
    cases entry with
    | create => exact hz.create hnone
    | kill => exact hz.enter hnone
    | exception halted => exact hz.enter hnone
  | handler h =>
    obtain ⟨hd, hh, hstep⟩ := Option.bind_eq_some_iff.mp hy
    have hmeet := hin hd hh
    rcases handlerStep_cases hstep with ⟨entry, hd', hpc, rfl, hcases⟩ | ⟨s, pc, set, hpc, rfl⟩
    · simp only [ComesInTime, hpc] at hmeet
      simp only [Launches.after, hh, Threads.setHandler_self]
      exact hz.scan hh hpc hmeet hcases
    · simp only [Launches.after, hh, Threads.setHandler_self]
      refine hz.call hh hpc (fun hstarting => ?_) fun c hsetting => ?_
      · simpa only [ComesInTime, hstarting] using hmeet
      · simpa only [ComesInTime, hsetting] using hmeet
  | socket d e => exact hz.socket hy
  | worker d e =>
    have hworker : workerEvent z.1 d e = some y := hy
    have hhandlers := workerEvent_handlers hworker
    have hothers := workerEvent_others hworker
    cases e with
    | launch pid =>
      cases hpc : (z.1.workers d).pc with
      | outside =>
        simp only [threadStep, workerEvent, hpc, Option.some.injEq] at hy
        subst hy
        exact hz.launch (by rw [hpc]; rfl) hhandlers hothers fun _ => rfl
      | _ => simp [threadStep, workerEvent, hpc] at hy
    | step =>
      refine hz.worker hhandlers hothers (workerEvent_runs hworker (by simp) (by simp) ?_)
      intro _ pid slot hpc
      simpa only [InTime, hpc] using hin
    | launchFailed =>
      exact hz.worker hhandlers hothers (workerEvent_runs hworker (by simp) (fun _ => hin) (by simp))
    | _ => exact hz.worker hhandlers hothers (workerEvent_runs hworker (by simp) (by simp) (by simp))

/-- **`run` hears that its process has started**, and nothing else, in a run in which every callback
    comes in time. -/
theorem starts_heard (states : C → ConnState) (es : List (ThreadEvent H C))
    (hin : LTS.Along launchStep InTime (Threads.start states, .start) es)
    (hrun : LTS.exec launchStep (Threads.start states, .start) es = some (x, l)) :
    HearsStart x l := by
  have hstep : ∀ (z : Threads H C × Launches H C) e z', Notified z.1 z.2 → InTime z e →
      launchStep z e = some z' → Notified z'.1 z'.2 := fun _ _ _ => launchStep_notified
  have hnotified := LTS.exec_invariant hstep es (notified_start states) hin hrun
  exact hnotified.hearsStart

/-- A worker launches process 5 and goes so many steps. -/
def launches (steps : Nat) : List (ThreadEvent Unit Unit) :=
  .worker () (.launch 5) :: List.replicate steps (.worker () .step)

/-- The kernel calls `handle_proc_create` for it, and the call goes so many steps. -/
def created (steps : Nat) : List (ThreadEvent Unit Unit) :=
  .enter () 5 7 .create :: List.replicate steps (.handler ())

/-- The callback comes when the process is in the pool, and `run` hears it. -/
theorem starts_heard_attached :
    ∃ x l, LTS.exec launchStep (Threads.start fun _ => .new, .start) (launches 3 ++ created 3) =
        some (x, l) ∧
      (x.workers ()).pc = .starting 5 ∧ l.returned () = true ∧ HearsStart x l := by
  have hmeets : ∀ {z : Threads Unit Unit × Launches Unit Unit} {hd : Callback Unit},
      z.1.handlers () = some hd → ComesInTime z.1 z.2 () hd → InTime z (.handler ()) := by
    intro z hd hhd hmeet hd' hhd'
    exact Option.some.inj (hhd.symm.trans hhd') ▸ hmeet
  refine ⟨_, _, rfl, rfl, rfl, starts_heard (fun _ => .new) (launches 3 ++ created 3) ?_ rfl⟩
  refine .cons rfl trivial (.cons rfl trivial (.cons rfl (fun hused => absurd rfl hused)
    (.cons rfl trivial (.cons rfl trivial ?_))))
  -- the scan, the load of the event flag, the set
  exact .cons rfl (hmeets rfl fun _ => .inl rfl) (.cons rfl (hmeets rfl fun _ _ => rfl)
    (.cons rfl (hmeets rfl ⟨rfl, Option.some_ne_none (5 : SceUID)⟩) trivial))

/-- The callback comes while the launch call is still under way: **it finds nobody, and `run`'s wait
    can only time out**. -/
theorem start_missed :
    ¬ ∀ (H C : Type) (_ : DecidableEq H) (_ : DecidableEq C) (states : C → ConnState)
      (es : List (ThreadEvent H C)) (x : Threads H C) (l : Launches H C),
      LTS.exec launchStep (Threads.start states, .start) es = some (x, l) → HearsStart x l := by
  intro hclaim
  have hhears := hclaim Unit Unit inferInstance inferInstance (fun _ => .new)
    (launches 0 ++ created 4 ++ List.replicate 3 (.worker () .step)) _ _ rfl
  have htimeout := (hhears.inTime () 5 rfl rfl).1
  exact absurd htimeout (Option.some_ne_none _)

end VitaGdb
