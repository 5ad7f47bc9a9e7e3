/-
  Delivery: whether an exception the module has consumed is told to the debugger.

  A handler that returns "handled" has halted the thread and its process, and only the debugger gets
  them going again.  So it owes the worker one stop for that thread: an event in the ring, or the
  result of a step.  `Account` keeps the books of a run beside the threads: which handler has made
  which stop available in which slot, and what has become of them, reported by the worker or dropped
  by `reset`.  `Delivered` says that the books balance, and that every handler has made exactly one
  stop, for its own thread, if the session has stayed attached while it ran.

  Five things can go wrong, and the code looks at none of them: the slot is claimed and its event
  flag not stored yet (`stops_dropped`), the ring is full, two handlers push at once, another
  handler takes the step between `is_step` and `step_finished` or the step is another thread's,
  and a result that has not been reported yet is overwritten.  `Delivers` is the runs without
  them.
-/
import VitaGdb.Gdb.Threads

namespace VitaGdb

open Fifo (Label)

variable {H C : Type}

/-! ## The books -/

/-- What a run has come to: the stops made available in a slot, by whom, and what has become of
    them; whether a slot is attached, and has stayed so since a callback found it; and whether a
    handler has halted its thread. -/
structure Account (H : Type) where
  made : Fin 4 → List (H × SceUID)
  reported : Fin 4 → List SceUID
  dropped : Fin 4 → List SceUID
  attached : Fin 4 → Bool
  stays : H → Bool
  consumed : H → Bool

/-- Nothing has happened yet. -/
def Account.start (attached : Fin 4 → Bool) : Account H where
  made := fun _ => []
  reported := fun _ => []
  dropped := fun _ => []
  attached := attached
  stays := fun _ => false
  consumed := fun _ => false

section Books

variable [DecidableEq H]

/-- The stops a handler has made available in a slot. -/
def Account.stopsOf (a : Account H) (i : Fin 4) (h : H) : List SceUID :=
  ((a.made i).filter fun stop => stop.1 = h).map Prod.snd

/-- The threads of the events that a step of a ring puts in, and takes out. -/
def ringPut (r : RingState H ExceptionEvent 8) (e : RingEvent H ExceptionEvent) : List SceUID :=
  ((ringLabel r e).toList.flatMap Label.put).map ExceptionEvent.tid

def ringTaken (r : RingState H ExceptionEvent 8) (e : RingEvent H ExceptionEvent) : List SceUID :=
  (((ringLabel r e).toList.flatMap Label.taken).filterMap id).map ExceptionEvent.tid

/-- The stops the next step of a callback makes available. -/
def madeBy (h : H) (hd : Callback C) (s : ThreadSlot H C) : List SceUID :=
  match hd.pc with
  | .took stepTid => [stepTid]
  | .queueing _ => ringPut s.exceptions (.produce h)
  | _ => []

/-- The stops the next step of a worker reports, and drops. -/
def reportedBy (pc : WorkerPc C) (s : ThreadSlot H C) : List SceUID :=
  match pc with
  | .steps => s.stepResult.toList
  | .events => ringTaken s.exceptions (s.exceptions.nextConsume .pop)
  | _ => []

def droppedBy (pc : WorkerPc C) (s : ThreadSlot H C) : List SceUID :=
  match pc with
  | .resetting .clearExceptions _ => ringTaken s.exceptions (s.exceptions.nextConsume .clear)
  | _ => []

/-- Its worker is not detaching. -/
def WorkerPc.keeps : WorkerPc C → Bool
  | .resetting _ _ => false
  | _ => true

/-- The books after a step of a callback. -/
def Account.handled (a : Account H) (h : H) (hd : Callback C) (s : ThreadSlot H C) : Account H :=
  { a with
    made := Function.update a.made hd.slot
      (a.made hd.slot ++ (madeBy h hd s).map fun tid => (h, tid))
    stays := match hd.pc with
      | .scanning _ => Function.update a.stays h (a.attached hd.slot)
      | _ => a.stays
    consumed := match hd.pc with
      | .found _ => Function.update a.consumed h true
      | _ => a.consumed }

/-- The books after a step of a worker, which was at `w` and is at `w'`. -/
def Account.worked (a : Account H) (x : Threads H C) (w w' : WorkerThread C) : Account H :=
  let attached : Fin 4 → Bool := fun i =>
    if w'.session = some i then w'.pc.keeps
    else if w.session = some i then false
    else a.attached i
  { a with
    reported := match w.session with
      | some i => Function.update a.reported i (a.reported i ++ reportedBy w.pc (x.slots i))
      | none => a.reported
    dropped := match w.session with
      | some i => Function.update a.dropped i (a.dropped i ++ droppedBy w.pc (x.slots i))
      | none => a.dropped
    attached := attached
    stays := fun h =>
      match x.handlers h with
      | some hd => a.stays h && (hd.pc.isOver || attached hd.slot)
      | none => a.stays h }

/-- The books after a step. -/
def Account.after (a : Account H) (x y : Threads H C) : ThreadEvent H C → Account H
  | .handler h =>
    match x.handlers h with
    | some hd => a.handled h hd (x.slots hd.slot)
    | none => a
  | .worker c _ => a.worked x (x.workers c) (y.workers c)
  | _ => a

/-- One atomic step, with the books. -/
def accountStep [DecidableEq C] (z : Threads H C × Account H) (e : ThreadEvent H C) :
    Option (Threads H C × Account H) :=
  (threadStep z.1 e).map fun y => (y, z.2.after z.1 y e)

/-! ## What is owed -/

/-- The stops the worker of a slot can get: a result, and the events in the ring. -/
def available (s : ThreadSlot H C) : List SceUID :=
  s.stepResult.toList ++ (s.exceptions.cells.clear.1.filterMap id).map ExceptionEvent.tid

/-- The books of a run that began at `x₀`. -/
structure Delivered (x₀ x : Threads H C) (a : Account H) : Prop where
  /-- A handler that has halted its thread, in a session that has stayed attached, and has returned,
      has made one stop available, for that thread. -/
  once : ∀ h hd, x.handlers h = some hd → hd.pc = .returned → a.consumed h = true →
    a.stays h = true → a.stopsOf hd.slot h = [hd.tid]
  /-- Every stop that was made available is so, or was reported, or dropped by a detach. -/
  balance : ∀ i, (available (x₀.slots i) ++ (a.made i).map Prod.snd).Perm
    (a.reported i ++ a.dropped i ++ available (x.slots i))

/-- No call is under way, and the rings are queues. -/
structure AtRest (x : Threads H C) : Prop where
  handlers : ∀ h, x.handlers h = none
  rings : ∀ i, (∃ q, (x.slots i).exceptions.cells.Holds q) ∧
    (∀ h, (x.slots i).exceptions.producers h = none) ∧ (x.slots i).exceptions.consumer = .idle

/-! ## The condition -/

/-- A push that is about to look for room finds it. -/
def FindsRoom (r : RingState H ExceptionEvent 8) (h : H) : Prop :=
  match r.producers h with
  | some (.loadedHead _ head) => (head + 1) % 8 ≠ r.cells.tail
  | _ => True

/-- What a handler has to find in its slot: an event flag, room in the ring and nobody else writing,
    the step of its own thread, no result waiting. -/
def Finds (a : Account H) (h : H) (hd : Callback C) (s : ThreadSlot H C) : Prop :=
  match hd.pc with
  | .pushing _ => a.stays h = true → s.evflag.isSome
  | .queueing _ =>
    WritesSound s.exceptions (.produce h) ∧ (a.stays h = true → FindsRoom s.exceptions h)
  | .taking => a.stays h = true → s.step.map Prod.fst = some hd.tid
  | .took _ => s.stepResult = none
  | _ => True

def Delivers (z : Threads H C × Account H) : ThreadEvent H C → Prop
  | .handler h => ∀ hd ∈ z.1.handlers h, Finds z.2 h hd (z.1.slots hd.slot)
  | _ => True

end Books

/-! ## Rings and their books -/

/-- A push takes nothing out. -/
theorem ringTaken_produce (r : RingState H ExceptionEvent 8) (h : H) :
    ringTaken r (.produce h) = [] := by
  unfold ringTaken
  cases hl : ringLabel r (.produce h) with
  | none => rfl
  | some l =>
    cases l with
    | popped cell =>
      simp only [ringLabel] at hl
      split at hl
      · simp at hl
      · split at hl <;> simp at hl
    | cleared cells =>
      simp only [ringLabel] at hl
      split at hl
      · simp at hl
      · split at hl <;> simp at hl
    | _ => rfl

/-- A pop or a clear puts nothing in. -/
theorem ringPut_nextConsume (r : RingState H ExceptionEvent 8)
    {start : RingEvent H ExceptionEvent} (hstart : start = .pop ∨ start = .clear) :
    ringPut r (r.nextConsume start) = [] := by
  unfold ringPut RingState.nextConsume
  cases hc : r.consumer with
  | idle => rcases hstart with rfl | rfl <;> rfl
  | popping c =>
    cases hl : ringLabel r .consume with
    | none => rfl
    | some l =>
      simp only [ringLabel, hc] at hl
      split at hl <;> simp at hl <;> subst hl <;> rfl
  | clearing c =>
    cases hl : ringLabel r .consume with
    | none => rfl
    | some l =>
      simp only [ringLabel, hc] at hl
      split at hl <;> simp at hl <;> subst hl <;> rfl

/-- Both are sound writes, as they write nothing. -/
theorem writesSound_nextConsume (r : RingState H ExceptionEvent 8)
    {start : RingEvent H ExceptionEvent} (hstart : start = .pop ∨ start = .clear) :
    WritesSound r (r.nextConsume start) := by
  unfold RingState.nextConsume
  cases r.consumer with
  | idle => rcases hstart with rfl | rfl <;> trivial
  | _ => trivial

/-! ## Slots and their books -/

/-- The stops a slot holds, while its ring stores `q`. -/
def stops (s : ThreadSlot H C) (q : Fifo.State ExceptionEvent) : List SceUID :=
  s.stepResult.toList ++ q.queue.map ExceptionEvent.tid

/-- A step on a slot puts stops in and takes stops out, and the ring stays a queue. -/
def StopsMove (s s' : ThreadSlot H C) (put taken : List SceUID) : Prop :=
  ∀ q, Represents s.exceptions q → ∃ q', Represents s'.exceptions q' ∧
    (stops s q ++ put).Perm (taken ++ stops s' q')

/-- The books of a slot balance: what it held and what was made is what was reported or dropped and
    what it holds. -/
def Balanced (before made reported dropped : List SceUID) (s : ThreadSlot H C) : Prop :=
  ∃ q, Represents s.exceptions q ∧ (before ++ made).Perm (reported ++ dropped ++ stops s q)

theorem StopsMove.same {s s' : ThreadSlot H C} (hring : s'.exceptions = s.exceptions)
    (hresult : s'.stepResult = s.stepResult) : StopsMove s s' [] [] := by
  intro q hq
  refine ⟨q, hring ▸ hq, ?_⟩
  rw [stops, stops, hresult, List.append_nil, List.nil_append]

theorem Balanced.step {before made reported dropped put report drop : List SceUID}
    {s s' : ThreadSlot H C} (h : Balanced before made reported dropped s)
    (hmove : StopsMove s s' put (report ++ drop)) :
    Balanced before (made ++ put) (reported ++ report) (dropped ++ drop) s' := by
  obtain ⟨q, hq, hbooks⟩ := h
  obtain ⟨q', hq', hmoved⟩ := hmove q hq
  refine ⟨q', hq', List.perm_iff_count.mpr fun tid => ?_⟩
  have hbooks := hbooks.count_eq tid
  have hmoved := hmoved.count_eq tid
  simp only [List.count_append] at hbooks hmoved ⊢
  omega

/-- While the ring is a queue, it is the queue that the worker can get. -/
theorem available_eq {s : ThreadSlot H C} {q : Fifo.State ExceptionEvent}
    (hq : Represents s.exceptions q) : available s = stops s q := by
  rw [available, stops, hq.holds.clear_drops, List.filterMap_map]
  simp

variable {x y : Threads H C} {c : C}

/-- Writing a slot without touching its ring or its result. -/
theorem setSlot_aside (x : Threads H C) {i : Fin 4} {s : ThreadSlot H C}
    (hring : s.exceptions = (x.slots i).exceptions) (hresult : s.stepResult = (x.slots i).stepResult)
    (j : Fin 4) : ((x.setSlot i s).slots j).exceptions = (x.slots j).exceptions ∧
      ((x.setSlot i s).slots j).stepResult = (x.slots j).stepResult := by
  show (Function.update x.slots i s j).exceptions = _ ∧ (Function.update x.slots i s j).stepResult = _
  by_cases hj : j = i
  · rw [hj, Function.update_self]
    exact ⟨hring, hresult⟩
  · rw [Function.update_of_ne hj]
    exact ⟨rfl, rfl⟩

/-- What a worker's step does to the slots: the producers' calls stay, and the worker takes out of
    its slot what it reports or drops. -/
structure WorkerStops (x : Threads H C) (c : C) (y : Threads H C) : Prop where
  producers : ∀ i, (y.slots i).exceptions.producers = (x.slots i).exceptions.producers
  own : ∀ i, (x.workers c).session = some i → StopsMove (x.slots i) (y.slots i) []
    (reportedBy (x.workers c).pc (x.slots i) ++ droppedBy (x.workers c).pc (x.slots i))
  others : ∀ i, (x.workers c).session ≠ some i → StopsMove (x.slots i) (y.slots i) [] []

theorem WorkerStops.aside (haside : ∀ j, (y.slots j).exceptions = (x.slots j).exceptions ∧
      (y.slots j).stepResult = (x.slots j).stepResult)
    (hreported : ∀ i, reportedBy (x.workers c).pc (x.slots i) = [])
    (hdropped : ∀ i, droppedBy (x.workers c).pc (x.slots i) = []) : WorkerStops x c y where
  producers := fun i => by rw [(haside i).1]
  own := fun i _ => by
    rw [hreported, hdropped]
    exact StopsMove.same (haside i).1 (haside i).2
  others := fun i _ => StopsMove.same (haside i).1 (haside i).2

/-- Only the slot the worker has claimed moves. -/
theorem WorkerStops.ofSlot {i : Fin 4} {s : ThreadSlot H C} (hi : (x.workers c).session = some i)
    (hy : y.slots = Function.update x.slots i s)
    (hproducers : s.exceptions.producers = (x.slots i).exceptions.producers)
    (hmove : StopsMove (x.slots i) s []
      (reportedBy (x.workers c).pc (x.slots i) ++ droppedBy (x.workers c).pc (x.slots i))) :
    WorkerStops x c y where
  producers := fun j => by
    rw [hy]
    by_cases hj : j = i
    · rw [hj, Function.update_self, hproducers]
    · rw [Function.update_of_ne hj]
  own := fun j hj => by
    obtain rfl := Option.some.inj (hi.symm.trans hj)
    rw [hy, Function.update_self]
    exact hmove
  others := fun j hj => by
    have hne : j ≠ i := by
      rintro rfl
      exact hj hi
    rw [hy, Function.update_of_ne hne]
    exact StopsMove.same rfl rfl

variable [DecidableEq H]

/-! ## What the threads do to them -/

/-- A step of a ring, while it is a queue, moves the threads of its events. -/
theorem Represents.moves {r r' : RingState H ExceptionEvent 8} {q : Fifo.State ExceptionEvent}
    {e : RingEvent H ExceptionEvent} (hr : Represents r q) (hsound : WritesSound r e)
    (h : ringStep r e = some r') :
    ∃ q', Represents r' q' ∧ q.queue.map ExceptionEvent.tid ++ ringPut r e =
      ringTaken r e ++ q'.queue.map ExceptionEvent.tid := by
  have hmatched : LTS.Matched (Fifo.Step (8 - 1) fun _ => True) (Represents r') q (ringLabel r e) :=
    ringStep_matched hr hsound (fun _ _ _ _ _ _ => trivial) h
  unfold ringPut ringTaken
  cases hl : ringLabel r e with
  | none =>
    rw [hl] at hmatched
    exact ⟨q, hmatched, by simp⟩
  | some l =>
    rw [hl] at hmatched
    obtain ⟨q', hstep, hr'⟩ := hmatched
    refine ⟨q', hr', ?_⟩
    have hconserved := congrArg (fun cells => (cells.filterMap id).map ExceptionEvent.tid)
      hstep.conserved
    simpa [List.filterMap_append, List.filterMap_map] using hconserved

/-- Neither has to do with the calls of the producers. -/
theorem producers_nextConsume {r r' : RingState H ExceptionEvent 8}
    {start : RingEvent H ExceptionEvent} (hstart : start = .pop ∨ start = .clear)
    (h : ringStep r (r.nextConsume start) = some r') : r'.producers = r.producers := by
  unfold RingState.nextConsume at h
  cases hc : r.consumer with
  | idle =>
    rw [hc] at h
    rcases hstart with rfl | rfl
    · simp only [ringStep, hc, Option.some.injEq] at h
      rw [← h]
    · simp only [ringStep, hc, Option.some.injEq] at h
      rw [← h]
  | popping c =>
    simp only [hc, ringStep, Option.some.injEq] at h
    rw [← h]
  | clearing c =>
    simp only [hc, ringStep, Option.some.injEq] at h
    rw [← h]

/-- A push under way is about one event, and goes on until it answers. -/
theorem ringStep_produce_value {r r' : RingState H ExceptionEvent 8} {h : H}
    (hstep : ringStep r (.produce h) = some r') : ∃ p, r.producers h = some p ∧
      ((ringLabel r (.produce h) = none ∧ ∃ p', p'.value = p.value ∧
          r'.producers = Function.update r.producers h (some p')) ∨
        ((ringLabel r (.produce h) = some (.pushed p.value) ∨
            ringLabel r (.produce h) = some (.refused p.value) ∧ ¬ FindsRoom r h) ∧
          r'.producers = Function.update r.producers h none)) := by
  cases hp : r.producers h with
  | none => simp [ringStep, hp] at hstep
  | some p =>
    refine ⟨p, rfl, ?_⟩
    simp only [ringStep, hp, Option.some.injEq] at hstep
    subst hstep
    cases p with
    | entered v =>
      exact .inl ⟨by simp [ringLabel, hp, RingCells.pushStep], .loadedHead v r.cells.head, rfl, rfl⟩
    | loadedHead v head =>
      by_cases hfull : (head + 1) % 8 = r.cells.tail
      · refine .inr ⟨.inr ⟨by simp [ringLabel, hp, RingCells.pushStep, hfull, Pushing.value], ?_⟩, ?_⟩
        · simp [FindsRoom, hp, hfull]
        · simp [RingCells.pushStep, hfull]
      · refine .inl ⟨by simp [ringLabel, hp, RingCells.pushStep, hfull], .room v head, rfl, ?_⟩
        simp [RingCells.pushStep, hfull]
    | room v head =>
      exact .inl ⟨by simp [ringLabel, hp, RingCells.pushStep], .written v head, rfl, rfl⟩
    | written v head =>
      exact .inr ⟨.inl (by simp [ringLabel, hp, RingCells.pushStep, Pushing.value]), rfl⟩

/-- **A callback's step on its slot** puts in what it makes. -/
theorem callbackPc_stops {h : H} {hd : Callback C} {s s' : ThreadSlot H C}
    {pc' : CallbackPc C} {set : Option (C × U32)} (hstep : hd.pc.step h hd.tid s = some (s', pc', set))
    (htook : ∀ tid, hd.pc = .took tid → s.stepResult = none)
    (hsound : ∀ evflag, hd.pc = .queueing evflag → WritesSound s.exceptions (.produce h)) :
    StopsMove s s' (madeBy h hd s) [] := by
  have hgoes := callbackPc_goes hstep
  generalize hpc : hd.pc = pc at hgoes
  cases hgoes with
  | stores stepTid =>
    intro q hq
    refine ⟨q, hq, ?_⟩
    simp only [stops, madeBy, hpc, htook stepTid hpc, Option.toList, List.nil_append]
    exact List.perm_append_comm
  | queues evflag ring hring =>
    intro q hq
    obtain ⟨q', hq', hmoved⟩ := hq.moves (hsound evflag hpc) hring
    refine ⟨q', hq', ?_⟩
    rw [ringTaken_produce, List.nil_append] at hmoved
    simp only [stops, madeBy, hpc, List.append_assoc, List.nil_append]
    rw [hmoved]
  | pushes event evflag ring hflag hring =>
    intro q hq
    have hsound : WritesSound s.exceptions (.push h event) := trivial
    obtain ⟨q', hq', hmoved⟩ := hq.moves hsound hring
    refine ⟨q', hq', ?_⟩
    rw [madeBy, hpc]
    simp only [ringPut, ringTaken, ringLabel, Option.toList, List.flatMap_nil, List.filterMap_nil,
      List.map_nil, List.append_nil, List.nil_append] at hmoved
    simp only [stops, List.append_nil, List.nil_append, hmoved]
    exact List.Perm.refl _
  | _ =>
    rw [madeBy, hpc]
    exact StopsMove.same rfl rfl

/-! ## What a callback owes -/

/-- It is still looking for its slot. -/
def CallbackPc.isScanning : CallbackPc C → Bool
  | .scanning _ => true
  | _ => false

/-- How far a call has come with its stop: before it makes one there is none, and what it is about
    to make is about its thread; then there is one, if the session has stayed attached. -/
def Owes (a : Account H) (h : H) (hd : Callback C) : Prop :=
  match hd.pc with
  | .scanning entry => a.consumed h = false ∧ entry.IsOf hd.tid
  | .found halts | .halted halts =>
    a.stopsOf hd.slot h = [] ∧ (GdbSessionInner.queuedEvent hd.tid halts).tid = hd.tid
  | .pushing event => a.stopsOf hd.slot h = [] ∧ event.tid = hd.tid
  | .taking | .queueing _ => a.stopsOf hd.slot h = []
  | .took stepTid => a.stopsOf hd.slot h = [] ∧ (a.stays h = true → stepTid = hd.tid)
  | .stored => a.stays h = true → a.stopsOf hd.slot h = [hd.tid]
  | .overflowed _ => a.stays h = false
  | .exiting | .exitStoring _ | .starting | .settingStarted _ => a.consumed h = false
  | .setting _ | .returned =>
    a.consumed h = true → a.stays h = true → a.stopsOf hd.slot h = [hd.tid]
  | .missed | .panicked => True

/-- Nobody else's step makes a call owe more. -/
theorem Owes.mono {a b : Account H} {h : H} {hd : Callback C} (howes : Owes a h hd)
    (hmade : b.stopsOf hd.slot h = a.stopsOf hd.slot h) (hconsumed : b.consumed h = a.consumed h)
    (hstays : b.stays h = true → a.stays h = true) : Owes b h hd := by
  unfold Owes at howes ⊢
  rw [hmade, hconsumed]
  cases hpc : hd.pc with
  | took stepTid =>
    rw [hpc] at howes
    exact ⟨howes.1, fun hb => howes.2 (hstays hb)⟩
  | stored =>
    rw [hpc] at howes
    exact fun hb => howes (hstays hb)
  | overflowed evflag =>
    rw [hpc] at howes
    exact Bool.eq_false_iff.mpr fun hb => Bool.eq_false_iff.mp howes (hstays hb)
  | setting evflag =>
    rw [hpc] at howes
    exact fun hc hb => howes hc (hstays hb)
  | returned =>
    rw [hpc] at howes
    exact fun hc hb => howes hc (hstays hb)
  | _ =>
    rw [hpc] at howes
    exact howes

theorem stopsOf_handled (a : Account H) (h : H) (hd : Callback C) (s : ThreadSlot H C) :
    (a.handled h hd s).stopsOf hd.slot h = a.stopsOf hd.slot h ++ madeBy h hd s := by
  simp [Account.stopsOf, Account.handled, List.filter_map, Function.comp_def]

theorem stopsOf_handled_other (a : Account H) {h h' : H} (hne : h' ≠ h) (hd : Callback C)
    (s : ThreadSlot H C) (i : Fin 4) : (a.handled h hd s).stopsOf i h' = a.stopsOf i h' := by
  unfold Account.stopsOf Account.handled
  by_cases hi : i = hd.slot
  · rw [hi]
    have hfilter : (List.map (fun tid => (h, tid)) (madeBy h hd s)).filter
        (fun stop => stop.1 = h') = [] := by
      simp [List.filter_map, Function.comp_def, hne.symm]
    simp only [Function.update_self, List.filter_append, hfilter, List.append_nil]
  · simp only [Function.update_of_ne hi]

/-- Only the scan says whether the session stays attached. -/
theorem stays_handled (a : Account H) (h : H) {hd : Callback C} (s : ThreadSlot H C)
    (hpc : hd.pc.isScanning = false) : (a.handled h hd s).stays = a.stays := by
  cases hpc' : hd.pc with
  | scanning entry => simp [hpc', CallbackPc.isScanning] at hpc
  | _ => simp only [Account.handled, hpc']

/-- Only the halt says whether the fault is consumed. -/
theorem consumed_handled (a : Account H) (h : H) {hd : Callback C} (s : ThreadSlot H C)
    (hpc : ∀ halts, hd.pc ≠ .found halts) : (a.handled h hd s).consumed = a.consumed := by
  cases hpc' : hd.pc with
  | found halts => exact absurd hpc' (hpc halts)
  | _ => simp only [Account.handled, hpc']

theorem stopsOf_handled_nil {a : Account H} {h : H} {hd : Callback C} (s : ThreadSlot H C)
    (hmade : madeBy h hd s = []) (hempty : a.stopsOf hd.slot h = []) :
    (a.handled h hd s).stopsOf hd.slot h = [] := by
  rw [stopsOf_handled, hempty, hmade, List.append_nil]

/-- A call whose fault is not consumed owes no stop, wherever it goes next to tell of a process. -/
theorem Owes.of_notConsumed {a : Account H} {h : H} (hd : Callback C) {pc' : CallbackPc C}
    (hnone : a.consumed h = false)
    (hpc' : pc' = .returned ∨ ∃ evflag, pc' = .exitStoring evflag ∨ pc' = .setting evflag ∨
      pc' = .settingStarted evflag) : Owes a h { hd with pc := pc' } := by
  rcases hpc' with rfl | ⟨evflag, rfl | rfl | rfl⟩
  · intro hconsumed
    exact absurd (hnone.symm.trans hconsumed) (by simp)
  · exact hnone
  · intro hconsumed
    exact absurd (hnone.symm.trans hconsumed) (by simp)
  · exact hnone

/-- **A step of a call** that finds what it has to find keeps what it owes. -/
theorem Owes.step {a : Account H} {h : H} {hd : Callback C} {s s' : ThreadSlot H C}
    {pc' : CallbackPc C} {set : Option (C × U32)} (howes : Owes a h hd)
    (hstep : hd.pc.step h hd.tid s = some (s', pc', set)) (hfinds : Finds a h hd s)
    (hpush : ∀ p, s.exceptions.producers h = some p → p.value.tid = hd.tid) :
    Owes (a.handled h hd s) h { hd with pc := pc' } := by
  have hgoes := callbackPc_goes hstep
  generalize hpc : hd.pc = pc at hgoes
  unfold Owes at howes
  rw [hpc] at howes
  -- the thread the session stays attached for is looked at when the slot is found, and then no more
  have hstays : pc.isScanning = false → (a.handled h hd s).stays = a.stays := fun hfound =>
    stays_handled a h s (hpc ▸ hfound)
  have hconsumed : (∀ halts, pc ≠ .found halts) → (a.handled h hd s).consumed = a.consumed :=
    fun hnot => consumed_handled a h s (hpc ▸ hnot)
  cases hgoes with
  | halts halts => exact ⟨stopsOf_handled_nil s (by simp [madeBy, hpc]) howes.1, howes.2⟩
  | completes => exact stopsOf_handled_nil s (by simp [madeBy, hpc]) howes.1
  | raises halts => exact ⟨stopsOf_handled_nil s (by simp [madeBy, hpc]) howes.1, howes.2⟩
  | stepGone hs =>
    -- another handler has taken the step: not while the session stays attached
    simp only [Finds, hpc] at hfinds
    intro _ hstay
    rw [hstays rfl] at hstay
    exact absurd (hfinds hstay) (by simp [hs])
  | takes stepTid addr hs =>
    simp only [Finds, hpc] at hfinds
    refine ⟨stopsOf_handled_nil s (by simp [madeBy, hpc]) howes, fun hstay => ?_⟩
    rw [hstays rfl] at hstay
    simpa [hs] using hfinds hstay
  | stores stepTid =>
    intro hstay
    rw [hstays rfl] at hstay
    show (a.handled h hd s).stopsOf hd.slot h = [hd.tid]
    rw [stopsOf_handled, howes.1, madeBy, hpc]
    simp [howes.2 hstay]
  | unwraps => trivial
  | notifies evflag =>
    intro _ hstay
    rw [hstays rfl] at hstay
    show (a.handled h hd s).stopsOf hd.slot h = [hd.tid]
    rw [stopsOf_handled, howes hstay]
    simp [madeBy, hpc]
  | drops event hflag =>
    simp only [Finds, hpc] at hfinds
    intro _ hstay
    rw [hstays rfl] at hstay
    exact absurd (hfinds hstay) (by simp [hflag])
  | pushes event evflag ring hflag hring =>
    exact stopsOf_handled_nil s (by simp [madeBy, hpc]) howes.1
  | queues evflag ring hring =>
    simp only [Finds, hpc] at hfinds
    obtain ⟨p, hp, ⟨hlabel, -⟩ | ⟨hlabel | ⟨hlabel, hfull⟩, -⟩⟩ := ringStep_produce_value hring
    · rw [hlabel]
      exact stopsOf_handled_nil s (by simp [madeBy, hpc, ringPut, hlabel]) howes
    · rw [hlabel]
      intro _ _
      show (a.handled h hd s).stopsOf hd.slot h = [hd.tid]
      rw [stopsOf_handled, howes]
      simp [madeBy, hpc, ringPut, hlabel, Label.put, hpush p hp]
    · rw [hlabel]
      show (a.handled h hd s).stays h = false
      rw [hstays rfl]
      exact Bool.eq_false_iff.mpr fun hstay => hfull (hfinds.2 hstay)
  | overflows evflag =>
    intro _ hstay
    rw [hstays rfl, howes] at hstay
    exact absurd hstay (by simp)
  | sets evflag =>
    intro hconsumed' hstay
    rw [hstays rfl] at hstay
    rw [hconsumed (by simp)] at hconsumed'
    show (a.handled h hd s).stopsOf hd.slot h = [hd.tid]
    rw [stopsOf_handled, howes hconsumed' hstay]
    simp [madeBy, hpc]
  | exitDrops =>
    exact Owes.of_notConsumed hd (by rw [hconsumed (by simp), howes]) (.inl rfl)
  | exits evflag =>
    exact Owes.of_notConsumed hd (by rw [hconsumed (by simp), howes]) (.inr ⟨evflag, .inl rfl⟩)
  | exitStores evflag =>
    exact Owes.of_notConsumed hd (by rw [hconsumed (by simp), howes])
      (.inr ⟨evflag, .inr (.inl rfl)⟩)
  | startDrops =>
    exact Owes.of_notConsumed hd (by rw [hconsumed (by simp), howes]) (.inl rfl)
  | starts evflag =>
    exact Owes.of_notConsumed hd (by rw [hconsumed (by simp), howes])
      (.inr ⟨evflag, .inr (.inr rfl)⟩)
  | setsStarted evflag =>
    exact Owes.of_notConsumed hd (by rw [hconsumed (by simp), howes]) (.inl rfl)

/-! ## The books of a run -/

/-- What holds of the threads and their books, at every moment. -/
structure Booked (x₀ x : Threads H C) (a : Account H) : Prop where
  balanced : ∀ i, Balanced (available (x₀.slots i)) ((a.made i).map Prod.snd) (a.reported i)
    (a.dropped i) (x.slots i)
  /-- A push under way is a call's, at its own slot and about its own thread. -/
  pushers : ∀ i h p, (x.slots i).exceptions.producers h = some p → ∃ hd evflag,
    x.handlers h = some hd ∧ hd.slot = i ∧ hd.pc = .queueing evflag ∧ p.value.tid = hd.tid
  /-- Only a call that has found its slot makes stops. -/
  made : ∀ i h tid, (h, tid) ∈ a.made i →
    ∃ hd, x.handlers h = some hd ∧ hd.pc.isScanning = false
  fresh : ∀ h, x.handlers h = none → a.consumed h = false
  owes : ∀ h hd, x.handlers h = some hd → Owes a h hd

/-- A call that has not found its slot has made nothing. -/
theorem Booked.stopsOf_nil {x₀ : Threads H C} {a : Account H} (hx : Booked x₀ x a) {h : H}
    (hscanning : ∀ hd, x.handlers h = some hd → hd.pc.isScanning = true) (i : Fin 4) :
    a.stopsOf i h = [] := by
  rw [Account.stopsOf, List.map_eq_nil_iff, List.filter_eq_nil_iff]
  rintro ⟨h', tid⟩ hmem
  rw [decide_eq_true_eq]
  rintro rfl
  obtain ⟨hd, hhd, hfound⟩ := hx.made i h' tid hmem
  exact absurd (hscanning hd hhd) (by simp [hfound])

/-- A callback is called. -/
theorem Booked.enter {x₀ : Threads H C} {a : Account H} (hx : Booked x₀ x a) {h : H}
    {pid tid : SceUID} {entry : Entry} (hnone : x.handlers h = none) (hof : entry.IsOf tid) :
    Booked x₀ (x.setHandler h { pid := pid, tid := tid, slot := 0, pc := .scanning entry }) a := by
  have hother : ∀ h' hd, x.handlers h' = some hd → h' ≠ h := by
    rintro h' hd hhd rfl
    exact absurd (hnone.symm.trans hhd) (by simp)
  refine ⟨hx.balanced, ?_, ?_, ?_, ?_⟩
  · intro i h' p hp
    obtain ⟨hd, evflag, hhd, hrest⟩ := hx.pushers i h' p hp
    exact ⟨hd, evflag, (x.setHandler_of_ne (hother h' hd hhd) _).trans hhd, hrest⟩
  · intro i h' tid' hmem
    obtain ⟨hd, hhd, hfound⟩ := hx.made i h' tid' hmem
    exact ⟨hd, (x.setHandler_of_ne (hother h' hd hhd) _).trans hhd, hfound⟩
  · intro h' hh'
    have hne : h' ≠ h := by
      rintro rfl
      exact absurd ((x.setHandler_self _ _).symm.trans hh') (by simp)
    exact hx.fresh h' ((x.setHandler_of_ne hne _).symm.trans hh')
  · intro h' hd hhd
    by_cases hh : h' = h
    · subst hh
      obtain rfl := Option.some.inj ((x.setHandler_self _ _).symm.trans hhd)
      exact ⟨hx.fresh h' hnone, hof⟩
    · exact hx.owes h' hd ((x.setHandler_of_ne hh _).symm.trans hhd)

/-- The socket and the receive threads take no part. -/
theorem Booked.socket {x₀ : Threads H C} {a : Account H} (hx : Booked x₀ x a) {d : C}
    (hmoves : SocketMoves x d y) : Booked x₀ y a := by
  refine ⟨?_, ?_, ?_, ?_, ?_⟩
  · rw [hmoves.slots]
    exact hx.balanced
  · rw [hmoves.slots, hmoves.handlers]
    exact hx.pushers
  · rw [hmoves.handlers]
    exact hx.made
  · rw [hmoves.handlers]
    exact hx.fresh
  · rw [hmoves.handlers]
    exact hx.owes

/-- A worker's step, with its entries. -/
theorem Booked.worker {x₀ : Threads H C} {a : Account H} (hx : Booked x₀ x a)
    (hstops : WorkerStops x c y) (hhandlers : y.handlers = x.handlers) (w' : WorkerThread C) :
    Booked x₀ y (a.worked x (x.workers c) w') := by
  refine ⟨fun i => ?_, ?_, ?_, ?_, ?_⟩
  · have hother : (x.workers c).session ≠ some i → Balanced (available (x₀.slots i))
        ((a.made i).map Prod.snd) (a.reported i) (a.dropped i) (y.slots i) := by
      intro hne
      have hmove : StopsMove (x.slots i) (y.slots i) [] ([] ++ []) := hstops.others i hne
      simpa only [List.append_nil] using (hx.balanced i).step hmove
    cases hi : (x.workers c).session with
    | none =>
      simp only [Account.worked, hi]
      exact hother (by simp [hi])
    | some j =>
      by_cases hj : i = j
      · subst hj
        have hstep := (hx.balanced i).step (hstops.own i hi)
        simpa only [Account.worked, hi, Function.update_self, List.append_nil] using hstep
      · simp only [Account.worked, hi, Function.update_of_ne hj]
        exact hother fun heq => hj (Option.some.inj (heq.symm.trans hi))
  · intro i h p hp
    rw [hhandlers]
    exact hx.pushers i h p (by rwa [← hstops.producers i])
  · rw [hhandlers]
    exact hx.made
  · rw [hhandlers]
    exact hx.fresh
  · intro h hd hhd
    rw [hhandlers] at hhd
    refine (hx.owes h hd hhd).mono rfl rfl fun hstay => ?_
    simp only [Account.worked, hhd, Bool.and_eq_true] at hstay
    exact hstay.1

theorem handled_consumed_other (a : Account H) {h h' : H} (hne : h' ≠ h) (hd : Callback C)
    (s : ThreadSlot H C) : (a.handled h hd s).consumed h' = a.consumed h' := by
  unfold Account.handled
  cases hd.pc with
  | found halts => exact Function.update_of_ne hne _ _
  | _ => rfl

/-- The entries of one call are nobody else's. -/
theorem Owes.other {a : Account H} {h h' : H} {hd' : Callback C} (howes : Owes a h' hd') (hne : h' ≠ h)
    (hd : Callback C) (s : ThreadSlot H C) : Owes (a.handled h hd s) h' hd' := by
  refine howes.mono (stopsOf_handled_other a hne hd s hd'.slot)
    (handled_consumed_other a hne hd s) fun hstay => ?_
  unfold Account.handled at hstay
  cases hpc : hd.pc with
  | scanning entry =>
    simp only [hpc, Function.update_of_ne hne] at hstay
    exact hstay
  | _ =>
    simp only [hpc] at hstay
    exact hstay

/-- A call compares its slot, and finds it, goes on to the next, or has none. -/
theorem Booked.scan {x₀ : Threads H C} {a : Account H} (hx : Booked x₀ x a) {h : H}
    {hd hd' : Callback C} {entry : Entry} (hh : x.handlers h = some hd)
    (hpc : hd.pc = .scanning entry)
    (hd'_cases : (hd' = { hd with pc := entry.pc } ∧ (x.slots hd.slot).pid = hd.pid ∨
      (∃ slot, hd' = { hd with slot := slot }) ∨
      hd' = { hd with pc := .missed } ∧ (x.slots hd.slot).pid ≠ hd.pid ∧ nextSlot hd.slot = none)) :
    Booked x₀ (x.setHandler h hd') (a.handled h hd (x.slots hd.slot)) := by
  have hscanning : ∀ hd₁, x.handlers h = some hd₁ → hd₁.pc.isScanning = true := by
    intro hd₁ hhd₁
    obtain rfl := Option.some.inj (hh.symm.trans hhd₁)
    rw [hpc]
    rfl
  have hmade : (a.handled h hd (x.slots hd.slot)).made = a.made := by
    simp only [Account.handled, madeBy, hpc, List.map_nil, List.append_nil]
    exact Function.update_eq_self hd.slot a.made
  have hconsumed : (a.handled h hd (x.slots hd.slot)).consumed = a.consumed := by
    simp only [Account.handled, hpc]
  refine ⟨?_, ?_, ?_, ?_, ?_⟩
  · rw [hmade]
    exact hx.balanced
  · intro i h' p hp
    obtain ⟨hd₁, evflag, hhd₁, hslot, hqueueing, hvalue⟩ := hx.pushers i h' p hp
    have hne : h' ≠ h := by
      rintro rfl
      exact absurd (hscanning hd₁ hhd₁) (by simp [hqueueing, CallbackPc.isScanning])
    exact ⟨hd₁, evflag, (x.setHandler_of_ne hne _).trans hhd₁, hslot, hqueueing, hvalue⟩
  · rw [hmade]
    intro i h' tid hmem
    obtain ⟨hd₁, hhd₁, hfound⟩ := hx.made i h' tid hmem
    have hne : h' ≠ h := by
      rintro rfl
      exact absurd (hscanning hd₁ hhd₁) (by simp [hfound])
    exact ⟨hd₁, (x.setHandler_of_ne hne _).trans hhd₁, hfound⟩
  · rw [hconsumed]
    intro h' hh'
    have hne : h' ≠ h := by
      rintro rfl
      exact absurd ((x.setHandler_self _ _).symm.trans hh') (by simp)
    exact hx.fresh h' ((x.setHandler_of_ne hne _).symm.trans hh')
  · intro h' hd₁ hhd₁
    by_cases hne : h' = h
    · subst hne
      obtain rfl := Option.some.inj ((x.setHandler_self _ _).symm.trans hhd₁)
      have howes := hx.owes h' hd hh
      simp only [Owes, hpc] at howes
      have hnone : ∀ i, (a.handled h' hd (x.slots hd.slot)).stopsOf i h' = [] := by
        intro i
        rw [Account.stopsOf, hmade]
        exact hx.stopsOf_nil hscanning i
      rw [← hconsumed] at howes
      rcases hd'_cases with ⟨rfl, -⟩ | ⟨slot, rfl⟩ | ⟨rfl, -⟩
      · cases entry with
        | exception halted => exact ⟨hnone _, howes.2⟩
        | kill => exact howes.1
        | create => exact howes.1
      · simp only [Owes, hpc]
        exact howes
      · trivial
    · exact (hx.owes h' hd₁ ((x.setHandler_of_ne hne _).symm.trans hhd₁)).other hne hd _

/-- A call that has found its slot does not look for another. -/
theorem callbackPc_found {h : H} {tid : SceUID} {s s' : ThreadSlot H C} {pc pc' : CallbackPc C}
    {set : Option (C × U32)} (hstep : pc.step h tid s = some (s', pc', set)) :
    pc'.isScanning = false := by
  cases callbackPc_goes hstep with
  | queues evflag ring hring =>
    unfold CallbackPc.produced
    split <;> rfl
  | _ => rfl

/-- A callback's step starts, goes on with or ends its own push, and no other. -/
theorem callbackPc_producers {h : H} {tid : SceUID} {s s' : ThreadSlot H C} {pc pc' : CallbackPc C}
    {set : Option (C × U32)} (hstep : pc.step h tid s = some (s', pc', set))
    (hown : ∀ p, s.exceptions.producers h = some p →
      (∃ evflag, pc = .queueing evflag) ∧ p.value.tid = tid)
    (hevent : ∀ event, pc = .pushing event → event.tid = tid) :
    (∀ h', h' ≠ h → s'.exceptions.producers h' = s.exceptions.producers h') ∧
      ∀ p, s'.exceptions.producers h = some p →
        (∃ evflag, pc' = .queueing evflag) ∧ p.value.tid = tid := by
  -- no push is under way at the other places
  have hidle : (∀ evflag, pc ≠ .queueing evflag) → s'.exceptions = s.exceptions →
      (∀ h', h' ≠ h → s'.exceptions.producers h' = s.exceptions.producers h') ∧
        ∀ p, s'.exceptions.producers h = some p →
          (∃ evflag, pc' = .queueing evflag) ∧ p.value.tid = tid := by
    intro hnot hring
    rw [hring]
    refine ⟨fun _ _ => rfl, fun p hp => ?_⟩
    obtain ⟨⟨evflag, hqueueing⟩, -⟩ := hown p hp
    exact absurd hqueueing (hnot evflag)
  cases callbackPc_goes hstep with
  | queues evflag ring hring =>
    obtain ⟨p, hp, ⟨hlabel, p', hvalue, hproducers⟩ | ⟨-, hproducers⟩⟩ := ringStep_produce_value hring
    · refine ⟨fun h' hne => ?_, fun p₁ hp₁ => ⟨⟨evflag, by rw [hlabel]; rfl⟩, ?_⟩⟩
      · simp only [hproducers, Function.update_of_ne hne]
      · simp only [hproducers, Function.update_self, Option.some.injEq] at hp₁
        rw [← hp₁, hvalue]
        exact (hown p hp).2
    · refine ⟨fun h' hne => ?_, fun p₁ hp₁ => ?_⟩
      · simp only [hproducers, Function.update_of_ne hne]
      · simp [hproducers] at hp₁
  | pushes event evflag ring hflag hring =>
    simp only [ringStep] at hring
    split at hring
    · obtain rfl := Option.some.inj hring
      refine ⟨fun h' hne => ?_, fun p hp => ⟨⟨_, rfl⟩, ?_⟩⟩
      · simp only [Function.update_of_ne hne]
      · simp only [Function.update_self, Option.some.injEq] at hp
        rw [← hp]
        exact hevent event rfl
    · exact absurd hring (by simp)
  | _ => exact hidle (by simp) rfl

/-- The next step of a call that has found its slot, and finds there what it has to find. -/
theorem Booked.call {x₀ : Threads H C} {a : Account H} (hx : Booked x₀ x a) {h : H}
    {hd : Callback C} {s : ThreadSlot H C} {pc : CallbackPc C} {set : Option (C × U32)}
    (hh : x.handlers h = some hd)
    (hstep : hd.pc.step h hd.tid (x.slots hd.slot) = some (s, pc, set))
    (hfinds : Finds a h hd (x.slots hd.slot)) (hy : Called x h hd s pc y) :
    Booked x₀ y (a.handled h hd (x.slots hd.slot)) := by
  have hown : ∀ p, (x.slots hd.slot).exceptions.producers h = some p →
      (∃ evflag, hd.pc = .queueing evflag) ∧ p.value.tid = hd.tid := by
    intro p hp
    obtain ⟨hd₁, evflag, hhd₁, -, hqueueing, hvalue⟩ := hx.pushers hd.slot h p hp
    obtain rfl := Option.some.inj (hh.symm.trans hhd₁)
    exact ⟨⟨evflag, hqueueing⟩, hvalue⟩
  have hevent : ∀ event, hd.pc = .pushing event → event.tid = hd.tid := by
    intro event hpc
    have howes := hx.owes h hd hh
    simp only [Owes, hpc] at howes
    exact howes.2
  refine ⟨fun i => ?_, fun i h' p hp => ?_, fun i h' tid hmem => ?_, fun h' hh' => ?_,
    fun h' hd₁ hhd₁ => ?_⟩
  · by_cases hi : i = hd.slot
    · subst hi
      have hmove : StopsMove (x.slots hd.slot) s (madeBy h hd (x.slots hd.slot)) ([] ++ []) := by
        refine callbackPc_stops hstep (fun stepTid hpc => ?_) fun evflag hpc => ?_
        · simpa only [Finds, hpc] using hfinds
        · simp only [Finds, hpc] at hfinds
          exact hfinds.1
      have hstep := (hx.balanced hd.slot).step hmove
      rw [hy.slots, Function.update_self]
      simpa [Account.handled, Function.comp_def] using hstep
    · rw [hy.slots, Function.update_of_ne hi]
      simpa only [Account.handled, Function.update_of_ne hi] using hx.balanced i
  · rw [hy.slots] at hp
    by_cases hi : i = hd.slot
    · subst hi
      rw [Function.update_self] at hp
      obtain ⟨hothers, hself⟩ := callbackPc_producers hstep hown hevent
      by_cases hne : h' = h
      · subst hne
        obtain ⟨⟨evflag, hqueueing⟩, hvalue⟩ := hself p hp
        exact ⟨{ hd with pc := pc }, evflag, by rw [hy.handlers, Function.update_self], rfl,
          hqueueing, hvalue⟩
      · rw [hothers h' hne] at hp
        obtain ⟨hd₁, evflag, hhd₁, hrest⟩ := hx.pushers hd.slot h' p hp
        exact ⟨hd₁, evflag, by rw [hy.handlers, Function.update_of_ne hne, hhd₁], hrest⟩
    · rw [Function.update_of_ne hi] at hp
      obtain ⟨hd₁, evflag, hhd₁, hslot, hrest⟩ := hx.pushers i h' p hp
      have hne : h' ≠ h := by
        rintro rfl
        obtain rfl := Option.some.inj (hh.symm.trans hhd₁)
        exact hi hslot.symm
      exact ⟨hd₁, evflag, by rw [hy.handlers, Function.update_of_ne hne, hhd₁], hslot, hrest⟩
  · rw [hy.handlers]
    by_cases hne : h' = h
    · subst hne
      exact ⟨_, Function.update_self _ _ _, callbackPc_found hstep⟩
    · rw [Function.update_of_ne hne]
      refine hx.made i h' tid ?_
      by_cases hi : i = hd.slot
      · subst hi
        simpa [Account.handled, hne, Ne.symm hne] using hmem
      · simpa only [Account.handled, Function.update_of_ne hi] using hmem
  · rw [hy.handlers] at hh'
    have hne : h' ≠ h := by
      rintro rfl
      simp at hh'
    rw [Function.update_of_ne hne] at hh'
    rw [handled_consumed_other a hne]
    exact hx.fresh h' hh'
  · rw [hy.handlers] at hhd₁
    by_cases hne : h' = h
    · subst hne
      rw [Function.update_self] at hhd₁
      obtain rfl := Option.some.inj hhd₁
      exact (hx.owes h' hd hh).step hstep hfinds fun p hp => (hown p hp).2
    · rw [Function.update_of_ne hne] at hhd₁
      exact (hx.owes h' hd₁ hhd₁).other hne hd _

/-- At rest nothing is owed. -/
theorem AtRest.booked {x₀ : Threads H C} (hrest : AtRest x₀) (attached : Fin 4 → Bool) :
    Booked x₀ x₀ (.start attached) := by
  refine ⟨fun i => ?_, fun i h p hp => ?_, fun i h tid hmem => ?_, fun _ _ => rfl, fun h hd hhd => ?_⟩
  · obtain ⟨⟨q, hq⟩, hproducers, hconsumer⟩ := hrest.rings i
    have hrepresents : Represents (x₀.slots i).exceptions ⟨q, none⟩ := by
      refine ⟨hq, fun p s head hp => ?_, fun p p' hp => ?_, ?_⟩
      · exact absurd ((hproducers p).symm.trans hp) (by simp)
      · rw [hproducers p] at hp
        exact absurd hp (by simp [Pushing.isWritten])
      · rw [hconsumer]
        rfl
    refine ⟨_, hrepresents, ?_⟩
    rw [available_eq hrepresents]
    simp [Account.start]
  · exact absurd (((hrest.rings i).2.1 h).symm.trans hp) (by simp)
  · exact absurd hmem (by simp [Account.start])
  · exact absurd ((hrest.handlers h).symm.trans hhd) (by simp)

theorem Booked.delivered {x₀ : Threads H C} {a : Account H} (hx : Booked x₀ x a) :
    Delivered x₀ x a where
  once := by
    intro h hd hhd hpc hconsumed hstays
    have howes := hx.owes h hd hhd
    simp only [Owes, hpc] at howes
    exact howes hconsumed hstays
  balance := by
    intro i
    obtain ⟨q, hq, hbooks⟩ := hx.balanced i
    rw [available_eq hq]
    exact hbooks

/-- A pop or a clear takes stops out of a slot. -/
theorem StopsMove.nextConsume {s : ThreadSlot H C} {ring : RingState H ExceptionEvent 8}
    {start : RingEvent H ExceptionEvent} (hstart : start = .pop ∨ start = .clear)
    (hring : ringStep s.exceptions (s.exceptions.nextConsume start) = some ring) :
    StopsMove s { s with exceptions := ring } []
      (ringTaken s.exceptions (s.exceptions.nextConsume start)) := by
  intro q hq
  obtain ⟨q', hq', hmoved⟩ := hq.moves (writesSound_nextConsume s.exceptions hstart) hring
  rw [ringPut_nextConsume s.exceptions hstart, List.append_nil] at hmoved
  refine ⟨q', hq', ?_⟩
  simp only [stops, hmoved, List.append_nil]
  exact List.perm_append_comm_assoc _ _ _

/-! ## Workers -/

variable [DecidableEq C]

omit [DecidableEq H] in
theorem detachThen_slots (x : Threads H C) (c : C) (next : Option (SceUID × AttachKind)) :
    (x.detachThen c next).slots = x.slots := by
  unfold Threads.detachThen
  split <;> rfl

/-- Most steps of a worker touch neither rings nor results. -/
theorem workerStep_aside (h : workerStep x c = some y) (hsteps : (x.workers c).pc ≠ .steps)
    (hevents : (x.workers c).pc ≠ .events)
    (hclear : ∀ next, (x.workers c).pc ≠ .resetting .clearExceptions next) (j : Fin 4) :
    (y.slots j).exceptions = (x.slots j).exceptions ∧
      (y.slots j).stepResult = (x.slots j).stepResult := by
  cases workerStep_goes h with
  | launched =>
    rw [detachThen_slots]
    exact ⟨rfl, rfl⟩
  | claims => exact setSlot_aside x (by rfl) (by rfl) j
  | publishes => exact setSlot_aside x (by rfl) (by rfl) j
  | exited => exact setSlot_aside x (by rfl) (by rfl) j
  | takesStep _ _ hpc => exact absurd hpc hsteps
  | noStep _ hpc => exact absurd hpc hsteps
  | pops _ _ hpc => exact absurd hpc hevents
  | resets phase next i _ hpc hi hreset =>
    cases phase with
    | loadFlag =>
      simp only [resetStep] at hreset
      split at hreset
      · rw [← Option.some.inj hreset]
        exact ⟨rfl, rfl⟩
      · rw [← Option.some.inj hreset]
        exact ⟨rfl, rfl⟩
    | clearFlag d =>
      rw [← Option.some.inj hreset]
      exact ⟨rfl, rfl⟩
    | clearExceptions => exact absurd hpc (hclear next)
    | _ =>
      rw [← Option.some.inj hreset]
      exact setSlot_aside x (by rfl) (by rfl) j
  | _ => exact ⟨rfl, rfl⟩

theorem workerStep_stops (h : workerStep x c = some y) : WorkerStops x c y := by
  cases hpc : (x.workers c).pc with
  | steps =>
    cases hi : (x.workers c).session with
    | none => simp [workerStep, hpc, hi] at h
    | some i =>
      simp only [workerStep, hpc, hi] at h
      cases hresult : (x.slots i).stepResult with
      | none =>
        rw [hresult] at h
        obtain rfl := Option.some.inj h
        refine WorkerStops.ofSlot hi (Function.update_eq_self i x.slots).symm rfl ?_
        simp only [reportedBy, droppedBy, hpc, hresult, Option.toList, List.append_nil]
        exact StopsMove.same rfl rfl
      | some stepTid =>
        rw [hresult] at h
        obtain rfl := Option.some.inj h
        refine WorkerStops.ofSlot hi rfl rfl fun q hq => ⟨q, hq, ?_⟩
        simp only [stops, reportedBy, droppedBy, hpc, hresult, List.append_nil]
        exact List.Perm.refl _
  | events =>
    cases hi : (x.workers c).session with
    | none => simp [workerStep, hpc, hi] at h
    | some i =>
      simp only [workerStep, hpc, hi, Option.map_eq_some_iff] at h
      obtain ⟨ring, hring, rfl⟩ := h
      refine WorkerStops.ofSlot hi rfl (producers_nextConsume (.inl rfl) hring) ?_
      simp only [reportedBy, droppedBy, hpc, List.append_nil]
      exact StopsMove.nextConsume (.inl rfl) hring
  | resetting phase next =>
    cases phase with
    | clearExceptions =>
      cases hi : (x.workers c).session with
      | none => simp [workerStep, hpc, hi] at h
      | some i =>
        simp only [workerStep, resetStep, hpc, hi, Option.map_eq_some_iff] at h
        obtain ⟨ring, hring, rfl⟩ := h
        refine WorkerStops.ofSlot hi rfl (producers_nextConsume (.inr rfl) hring) ?_
        simp only [reportedBy, droppedBy, hpc, List.nil_append]
        exact StopsMove.nextConsume (.inr rfl) hring
    | _ =>
      exact WorkerStops.aside (workerStep_aside h (by simp [hpc]) (by simp [hpc]) (by simp [hpc]))
        (by simp [reportedBy, hpc]) (by simp [droppedBy, hpc])
  | _ =>
    exact WorkerStops.aside (workerStep_aside h (by simp [hpc]) (by simp [hpc]) (by simp [hpc]))
      (by simp [reportedBy, hpc]) (by simp [droppedBy, hpc])

/-- **What any event of a worker does to the slots.** -/
theorem workerEvent_stops {e : WorkerEvent} (h : workerEvent x c e = some y) :
    WorkerStops x c y := by
  unfold workerEvent at h
  split at h
  · exact workerStep_stops h
  · rename_i hpc
    obtain rfl := Option.some.inj h
    exact WorkerStops.aside (fun _ => ⟨rfl, rfl⟩) (by simp [reportedBy, hpc])
      (by simp [droppedBy, hpc])
  · rename_i hpc
    obtain rfl := Option.some.inj h
    exact WorkerStops.aside (by simp [detachThen_slots]) (by simp [reportedBy, hpc])
      (by simp [droppedBy, hpc])
  · rename_i hpc
    split at h
    · exact absurd h (by simp)
    · obtain rfl := Option.some.inj h
      exact WorkerStops.aside (by simp [detachThen_slots]) (by simp [reportedBy, hpc])
        (by simp [droppedBy, hpc])
  · rename_i hpc
    obtain rfl := Option.some.inj h
    exact WorkerStops.aside (fun _ => ⟨rfl, rfl⟩) (by simp [reportedBy, hpc])
      (by simp [droppedBy, hpc])
  · rename_i hpc
    obtain rfl := Option.some.inj h
    exact WorkerStops.aside (fun _ => ⟨rfl, rfl⟩) (by simp [reportedBy, hpc])
      (by simp [droppedBy, hpc])
  · rename_i hpc
    split at h
    · obtain rfl := Option.some.inj h
      exact WorkerStops.aside (setSlot_aside x (by rfl) (by rfl)) (by simp [reportedBy, hpc])
        (by simp [droppedBy, hpc])
    · exact absurd h (by simp)
  · rename_i hpc
    split at h
    · exact absurd h (by simp)
    · obtain rfl := Option.some.inj h
      exact WorkerStops.aside (by simp [detachThen_slots]) (by simp [reportedBy, hpc])
        (by simp [droppedBy, hpc])
  · exact absurd h (by simp)

/-! ## Runs -/

/-- **One step** keeps the books. -/
theorem accountStep_booked {x₀ : Threads H C} {z z' : Threads H C × Account H}
    {e : ThreadEvent H C} (hz : Booked x₀ z.1 z.2) (hdelivers : Delivers z e)
    (h : accountStep z e = some z') : Booked x₀ z'.1 z'.2 := by
  rw [accountStep, Option.map_eq_some_iff] at h
  obtain ⟨y, hy, rfl⟩ := h
  cases e with
  | enter h pid tid entry =>
    obtain ⟨hnone, ⟨-, hof⟩, rfl⟩ := threadStep_enter hy
    exact hz.enter hnone hof
  | handler h =>
    obtain ⟨hd, hh, hstep⟩ := Option.bind_eq_some_iff.mp hy
    simp only [Account.after, hh]
    rcases handlerStep_cases hstep with ⟨entry, hd', hpc, rfl, hcases⟩ | ⟨s, pc, set, hpc, rfl⟩
    · exact hz.scan hh hpc hcases
    · exact hz.call hh hpc (hdelivers hd hh) (called hpc)
  | socket d e => exact hz.socket (socketStep_moves hy)
  | worker d e => exact hz.worker (workerEvent_stops hy) (workerEvent_handlers hy) (y.workers d)

/-- **No consumed exception is lost** in a run in which every handler finds what it has to find: it
    has made one stop, for its own thread, and the worker reports it, drops it when it detaches,
    or can still get it. -/
theorem stops_delivered {H C : Type} [DecidableEq H] [DecidableEq C] {x₀ x : Threads H C}
    {a : Account H} (hrest : AtRest x₀) (attached : Fin 4 → Bool) (es : List (ThreadEvent H C))
    (hdelivers : LTS.Along accountStep Delivers (x₀, .start attached) es)
    (hrun : LTS.exec accountStep (x₀, .start attached) es = some (x, a)) : Delivered x₀ x a := by
  have hstep : ∀ (z : Threads H C × Account H) e z', Booked x₀ z.1 z.2 → Delivers z e →
      accountStep z e = some z' → Booked x₀ z'.1 z'.2 := fun _ _ _ => accountStep_booked
  have hbooks := LTS.exec_invariant hstep es (hrest.booked attached) hdelivers hrun
  exact hbooks.delivered

theorem atRest_start {H C : Type} (states : C → ConnState) :
    AtRest (Threads.start states : Threads H C) where
  handlers := fun _ => rfl
  rings := fun _ => ⟨⟨[], RingCells.Holds.new (by decide)⟩, fun _ => rfl, rfl⟩

/-- A worker attaches to process 5, in so many steps. -/
def attaches (steps : Nat) : List (ThreadEvent Unit Unit) :=
  .worker () (.attach 5) :: List.replicate steps (.worker () .step)

/-- Its thread 7 has a data abort, and the handler goes so many steps. -/
def dataAbort (steps : Nat) : List (ThreadEvent Unit Unit) :=
  .enter () 5 7 (.exception (.event (.exception 7 .dabt))) :: List.replicate steps (.handler ())

/-- The worker asks for an event. -/
def asksForEvent : List (ThreadEvent Unit Unit) :=
  .worker () (.turn .eventOrByte) :: List.replicate 7 (.worker () .step)

/-- The worker has attached, the handler queues its event, and the worker reports it. -/
theorem stops_delivered_attached :
    ∃ x a, LTS.exec accountStep (Threads.start fun _ => .new, .start fun _ => false)
        (attaches 2 ++ dataAbort 9 ++ asksForEvent) = some (x, a) ∧
      a.consumed () = true ∧ a.stays () = true ∧ a.reported 0 = [7] ∧
      Delivered (Threads.start fun _ => .new) x a := by
  refine ⟨_, _, rfl, rfl, rfl, rfl, stops_delivered (atRest_start _) (fun _ => false)
    (attaches 2 ++ dataAbort 9 ++ asksForEvent) ?_ rfl⟩
  have hfinds : ∀ {z : Threads Unit Unit × Account Unit} {hd : Callback Unit},
      z.1.handlers () = some hd → Finds z.2 () hd (z.1.slots hd.slot) → Delivers z (.handler ()) := by
    intro z hd hhd hfinds hd' hhd'
    exact Option.some.inj (hhd.symm.trans hhd') ▸ hfinds
  refine .cons rfl trivial (.cons rfl trivial (.cons rfl trivial (.cons rfl trivial ?_)))
  -- the scan, the halt, the load of the event flag
  refine .cons rfl (hfinds rfl trivial) (.cons rfl (hfinds rfl trivial) (.cons rfl
    (hfinds rfl trivial) (.cons rfl (hfinds rfl fun _ => rfl) ?_)))
  -- the four steps of the push
  refine .cons rfl (hfinds rfl ⟨trivial, fun _ => trivial⟩) (.cons rfl
    (hfinds rfl ⟨trivial, fun _ => show (0 + 1) % 8 ≠ 0 by decide⟩) (.cons rfl
    (hfinds rfl ⟨⟨rfl, by decide, fun _ => rfl⟩, fun _ => trivial⟩) (.cons rfl
    (hfinds rfl ⟨trivial, fun _ => trivial⟩) (.cons rfl (hfinds rfl trivial) ?_))))
  exact .cons rfl trivial (.cons rfl trivial (.cons rfl trivial (.cons rfl trivial (.cons rfl trivial
    (.cons rfl trivial (.cons rfl trivial (.cons rfl trivial trivial)))))))

/-- The slot is claimed and its event flag not stored yet: **the handler finds the session, halts
    the thread and the process, and drops the event**. -/
theorem stops_dropped :
    ¬ ∀ (H C : Type) (_ : DecidableEq H) (_ : DecidableEq C) (x₀ x : Threads H C) (a : Account H)
      (attached : Fin 4 → Bool) (es : List (ThreadEvent H C)), AtRest x₀ →
      LTS.exec accountStep (x₀, .start attached) es = some (x, a) → Delivered x₀ x a := by
  intro hclaim
  have hdelivered := hclaim Unit Unit inferInstance inferInstance (Threads.start fun _ => .new) _ _
    (fun _ => false) (attaches 1 ++ dataAbort 4) (atRest_start _) rfl
  have hmade := hdelivered.once () _ rfl rfl rfl rfl
  exact absurd hmade (by decide)

end VitaGdb
