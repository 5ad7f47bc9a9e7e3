/-
  `gdb/tcpconn.rs`: a connection whose receive call fails.

  `net_rx_thread` has two ways to end.  At the end of the file it stores `closed`; after an error it
  stores `err` and leaves `closed` as it is.  `read` looks at `err` only where `closed` is set, so
  the error is never seen: once all bytes are read, every further `read` answers `None`
  (`Deaf.step`), and a worker that waits for `EV_WAKE_WORKER` then has nobody left to wake it but
  the handlers of its session (`broken_waits`).
-/
import VitaGdb.Gdb.Threads

namespace VitaGdb

variable {H C : Type}

/-! ## One connection -/

/-- A connection that is in order, and has not been dropped. -/
structure Open (r : ConnRun) : Prop where
  inv : ConnInv r
  user : r.user ≠ .closed

/-- The receive call has failed: the thread stores the error, and ends. -/
structure Failing (r : ConnRun) (err : SceError) : Prop where
  rx : r.rx = .failing err ∨ (r.rx = .wakingLast ∨ r.rx = .ended) ∧ r.conn.state.err = some err
  closed : r.conn.state.closed = false

/-- The receive thread has ended, and neither `closed` nor `len` is set: whatever `err` is, a `read`
    finds nothing. -/
structure Deaf (r : ConnRun) : Prop where
  rx : r.rx = .ended
  closed : r.conn.state.closed = false
  len : r.conn.state.len = 0
  user : (∃ answer, r.user = .idle answer) ∨ r.user = .reading .entered ∨ r.user = .reading .opened

variable {r r' : ConnRun} {err : SceError}

theorem Open.step {e : ConnEvent} (h : Open r) (he : e ≠ .close) (hstep : connStep r e = some r') :
    Open r' := by
  refine ⟨connInv_step h.inv hstep, fun hclosed => ?_⟩
  cases e with
  | close => exact absurd rfl he
  | rx =>
    simp only [connStep, Option.map_eq_some_iff] at hstep
    obtain ⟨⟨state, rx⟩, -, rfl⟩ := hstep
    exact h.user hclosed
  | recv chunk =>
    simp only [connStep] at hstep
    split at hstep
    · split at hstep
      · cases hstep
        exact h.user hclosed
      · exact absurd hstep (by simp)
    · exact absurd hstep (by simp)
  | eof =>
    simp only [connStep] at hstep
    split at hstep
    · cases hstep
      exact h.user hclosed
    · exact absurd hstep (by simp)
  | fail err =>
    simp only [connStep] at hstep
    split at hstep
    · cases hstep
      exact h.user hclosed
    · exact absurd hstep (by simp)
  | call =>
    simp only [connStep] at hstep
    split at hstep
    · cases hstep
      exact absurd hclosed (by simp)
    · exact absurd hstep (by simp)
  | read =>
    simp only [connStep] at hstep
    split at hstep
    · split at hstep
      · cases hstep
        exact absurd hclosed (by simp)
      · rename_i answer _
        cases hstep
        cases answer <;> exact absurd hclosed (by simp [ConnUser.answered])
    · exact absurd hstep (by simp)

/-- The receive call of an open connection fails. -/
theorem Open.fails (h : Open r) (hstep : connStep r (.fail err) = some r') : Failing r' err := by
  simp only [connStep] at hstep
  split at hstep
  · rename_i hrx
    obtain rfl := Option.some.inj hstep
    refine ⟨.inl rfl, Bool.eq_false_iff.mpr fun hclosed => ?_⟩
    -- a connection that is closed has a thread that has ended
    rcases h.inv.closedLast hclosed with huser | ⟨hend | hend, -⟩
    · exact h.user huser
    · exact absurd (hrx.symm.trans hend) (by simp)
    · exact absurd (hrx.symm.trans hend) (by simp)
  · exact absurd hstep (by simp)

/-- A step of `read` stores nothing but `len`. -/
theorem Reading.step_state {c c' : TcpConn} {reading : Reading}
    {next : Reading ⊕ Outcome SceError ReadResult} (h : reading.step c = (c', next)) :
    c'.state.closed = c.state.closed ∧ c'.state.err = c.state.err := by
  cases reading with
  | sawClosed =>
    simp only [Reading.step] at h
    split at h <;> (cases h; exact ⟨rfl, rfl⟩)
  | loaded len =>
    simp only [Reading.step] at h
    split at h
    · cases h
      exact ⟨rfl, rfl⟩
    · split at h <;> (cases h; exact ⟨rfl, rfl⟩)
  | _ =>
    cases h
    exact ⟨rfl, rfl⟩

/-- The worker's side changes neither the receive thread nor what it has stored. -/
theorem connStep_user {e : ConnEvent} (he : e = .call ∨ e = .read) (hstep : connStep r e = some r') :
    r'.rx = r.rx ∧ r'.conn.state.closed = r.conn.state.closed ∧
      r'.conn.state.err = r.conn.state.err := by
  rcases he with rfl | rfl
  · simp only [connStep] at hstep
    split at hstep
    · cases hstep
      exact ⟨rfl, rfl, rfl⟩
    · exact absurd hstep (by simp)
  · simp only [connStep] at hstep
    split at hstep
    · split at hstep
      · rename_i hread
        cases hstep
        exact ⟨rfl, Reading.step_state hread⟩
      · rename_i hread
        cases hstep
        exact ⟨rfl, Reading.step_state hread⟩
    · exact absurd hstep (by simp)

/-- Nothing but the worker's `close` undoes it. -/
theorem Failing.step {e : ConnEvent} (h : Failing r err) (he : e ≠ .close)
    (hstep : connStep r e = some r') : Failing r' err := by
  have hrx : r.rx ≠ .receiving := by
    rcases h.rx with hrx | ⟨hrx | hrx, -⟩ <;> simp [hrx]
  cases e with
  | close => exact absurd rfl he
  | rx =>
    simp only [connStep, Option.map_eq_some_iff] at hstep
    obtain ⟨⟨state, rx⟩, hthread, rfl⟩ := hstep
    rcases h.rx with hrx | ⟨hrx | hrx, herr⟩
    · rw [hrx] at hthread
      cases hthread
      exact ⟨.inr ⟨.inl rfl, rfl⟩, h.closed⟩
    · rw [hrx] at hthread
      cases hthread
      exact ⟨.inr ⟨.inr rfl, herr⟩, h.closed⟩
    · rw [hrx] at hthread
      exact absurd hthread (by simp [RxThread.step])
  | call =>
    obtain ⟨hsame, hclosed, herr⟩ := connStep_user (.inl rfl) hstep
    exact ⟨by rw [hsame, herr]; exact h.rx, hclosed.trans h.closed⟩
  | read =>
    obtain ⟨hsame, hclosed, herr⟩ := connStep_user (.inr rfl) hstep
    exact ⟨by rw [hsame, herr]; exact h.rx, hclosed.trans h.closed⟩
  | recv chunk => simp [connStep] at hstep
  | eof => simp [connStep] at hstep
  | fail err' => simp [connStep] at hstep

/-- Once its thread has ended and all bytes are read, it is deaf. -/
theorem Failing.deaf (h : Failing r err) (hopen : Open r) (hended : r.rx = .ended)
    (hread : r.returned = r.received.flatten) : Deaf r := by
  have hbytes := hopen.inv.bytes
  rw [← hread, List.append_assoc, List.append_assoc, List.self_eq_append_right,
    List.append_eq_nil_iff, List.append_eq_nil_iff] at hbytes
  obtain ⟨hinFlight, hheld, -⟩ := hbytes
  have hemptied : ∀ byte, r.user ≠ .reading (.emptied byte) := fun byte huser => by
    rw [ConnRun.inFlight, huser] at hinFlight
    exact absurd hinFlight (by simp)
  -- the cursor is in the chunk, so there is none
  have hlen : r.conn.state.len = 0 := by
    rcases hopen.inv.cursor with ⟨hlen, -⟩ | ⟨hlt, hle, -⟩
    · exact hlen
    · rw [ConnRun.held_eq hemptied, List.drop_eq_nil_iff, List.length_take,
        r.conn.state.buf.length_toList] at hheld
      omega
  refine ⟨hended, h.closed, hlen, ?_⟩
  have howns := hopen.inv.userOwns
  rw [ConnRun.UserOwns] at howns
  cases huser : r.user with
  | idle answer => exact .inl ⟨answer, rfl⟩
  | panicked =>
    rw [huser] at howns
    exact howns.elim
  | closed => exact absurd huser hopen.user
  | reading reading =>
    cases reading with
    | entered => exact .inr (.inl rfl)
    | opened => exact .inr (.inr rfl)
    | sawClosed =>
      rw [huser] at howns
      exact absurd (h.closed.symm.trans howns) (by simp)
    | loaded n =>
      rw [huser] at howns
      exact absurd (howns.1.trans hlen) howns.2
    | emptied byte => exact absurd huser (hemptied byte)
    | released byte =>
      rw [ConnRun.inFlight, huser] at hinFlight
      exact absurd hinFlight (by simp)

/-- **A deaf connection stays so**, and answers nothing but `None`. -/
theorem Deaf.step {e : ConnEvent} (h : Deaf r) (he : e ≠ .close) (hstep : connStep r e = some r') :
    Deaf r' ∧ ∀ answer, r'.user = .idle (some answer) → r.user = r'.user ∨ answer = .none := by
  have hrx : r.rx ≠ .receiving := by simp [h.rx]
  cases e with
  | close => exact absurd rfl he
  | rx => simp [connStep, h.rx, RxThread.step] at hstep
  | recv chunk => simp [connStep] at hstep
  | eof => simp [connStep] at hstep
  | fail err => simp [connStep] at hstep
  | call =>
    simp only [connStep] at hstep
    split at hstep
    · cases hstep
      exact ⟨⟨h.rx, h.closed, h.len, .inr (.inl rfl)⟩, by simp⟩
    · exact absurd hstep (by simp)
  | read =>
    rcases h.user with ⟨answer, huser⟩ | huser | huser
    · simp [connStep, huser] at hstep
    · simp only [connStep, huser, Reading.step, h.closed, Option.some.injEq] at hstep
      subst hstep
      exact ⟨⟨h.rx, h.closed, h.len, .inr (.inr rfl)⟩, by simp⟩
    · simp only [connStep, huser, Reading.step, h.len, if_true, Option.some.injEq] at hstep
      subst hstep
      refine ⟨⟨h.rx, h.closed, h.len, .inl ⟨_, rfl⟩⟩, fun answer hanswer => .inr ?_⟩
      exact (Option.some.inj (ConnUser.idle.inj hanswer)).symm

/-- A deaf connection answers a further `read`, with `None`. -/
theorem Deaf.reads (h : Deaf r) : ∃ es r', LTS.exec connStep r es = some r' ∧
    ConnEvent.call ∈ es ∧ r'.user = .idle (some .none) := by
  -- the read that is under way, if there is one
  obtain ⟨es, r₁, hrun, h₁, answer, huser⟩ : ∃ es r₁, LTS.exec connStep r es = some r₁ ∧ Deaf r₁ ∧
      ∃ answer, r₁.user = .idle answer := by
    have hopened : ∀ {r : ConnRun}, Deaf r → r.user = .reading .opened →
        ∃ r₁, connStep r .read = some r₁ ∧ Deaf r₁ ∧ ∃ answer, r₁.user = .idle answer := by
      intro r h huser
      have hstep : connStep r .read = some { r with
          user := .idle (some .none)
          returned := r.returned ++ byteOf (.ok .none) } := by
        simp only [connStep, huser, Reading.step, h.len, if_true]
        rfl
      exact ⟨_, hstep, (h.step (by simp) hstep).1, _, rfl⟩
    rcases h.user with ⟨answer, huser⟩ | huser | huser
    · exact ⟨[], r, rfl, h, answer, huser⟩
    · have hstep : connStep r .read = some { r with user := .reading .opened } := by
        simp only [connStep, huser, Reading.step, h.closed]
        rfl
      obtain ⟨r₁, hstep₁, h₁, hidle⟩ := hopened (h.step (by simp) hstep).1 rfl
      exact ⟨[.read, .read], r₁, by simp [LTS.exec_cons, hstep, hstep₁], h₁, hidle⟩
    · obtain ⟨r₁, hstep₁, h₁, hidle⟩ := hopened h huser
      exact ⟨[.read], r₁, by simp [LTS.exec_cons, hstep₁], h₁, hidle⟩
  have hnone : r₁.conn.read = (.ok .none, r₁.conn) := by
    rw [TcpConn.read, h₁.closed, if_neg (by simp), if_pos h₁.len]
  obtain ⟨n, hcall⟩ := read_run huser
  rw [hnone] at hcall
  have hwhole := LTS.exec_append connStep r es (.call :: List.replicate n .read)
  rw [hrun, Option.bind_some, hcall] at hwhole
  exact ⟨_, _, hwhole, by simp, rfl⟩

/-! ## The threads -/

section Threads

variable [DecidableEq C] {x y : Threads H C}

theorem detachThen_conns (x : Threads H C) (c : C) (next : Option (SceUID × AttachKind)) :
    (x.detachThen c next).conns = x.conns := by
  unfold Threads.detachThen
  split <;> rfl

/-- The receive thread and the socket take a step of their connection. -/
theorem socketStep_conn {c : C} {e : ConnEvent} (h : socketStep x c e = some y) :
    e ≠ .close ∧ connStep (x.conns c) e = some (y.conns c) := by
  have hself : ∀ (x : Threads H C) r, (x.setConn c r).conns c = r := fun _ _ =>
    Function.update_self _ _ _
  have hclose : e ≠ .close := by
    rintro rfl
    simp [socketStep] at h
  refine ⟨hclose, ?_⟩
  unfold socketStep at h
  split at h
  · split at h
    · obtain ⟨r, hr, rfl⟩ := Option.map_eq_some_iff.mp h
      rw [hr, hself]
    · exact absurd h (by simp)
  · obtain ⟨r, hr, rfl⟩ := Option.map_eq_some_iff.mp h
    rw [hr, hself]
  · obtain ⟨r, hr, rfl⟩ := Option.map_eq_some_iff.mp h
    rw [hr, hself]
  · exact absurd h (by simp)
  · exact absurd h (by simp)
  · exact absurd h (by simp)
  · obtain ⟨r, hr, rfl⟩ := Option.map_eq_some_iff.mp h
    rw [hr, hself]

variable [DecidableEq H]

/-- A worker takes a step of its connection, or leaves it alone. -/
theorem workerStep_conn {c : C} (h : workerStep x c = some y) :
    y.conns c = x.conns c ∨
      ∃ e, e ≠ ConnEvent.close ∧ connStep (x.conns c) e = some (y.conns c) := by
  have hself : ∀ (x : Threads H C) r, (x.setConn c r).conns c = r := fun _ _ =>
    Function.update_self _ _ _
  cases workerStep_goes h with
  | launched => exact .inl (by rw [detachThen_conns])
  | calls turn answer r hpc huser hr =>
    exact .inr ⟨.call, by simp, hr.trans (congrArg some (hself _ r).symm)⟩
  | wakesReader turn byte r hpc huser hr =>
    exact .inr ⟨.read, by simp, hr.trans (congrArg some (hself _ r).symm)⟩
  | reads turn reading r hpc huser hnot hr =>
    exact .inr ⟨.read, by simp, hr.trans (congrArg some (hself _ r).symm)⟩
  | resets phase next i y hpc hi hreset =>
    left
    cases phase with
    | loadFlag =>
      simp only [resetStep] at hreset
      split at hreset <;> (cases hreset; rfl)
    | clearExceptions =>
      obtain ⟨ring, -, rfl⟩ := Option.map_eq_some_iff.mp hreset
      rfl
    | _ =>
      cases hreset
      rfl
  | _ => exact .inl rfl

theorem workerEvent_conn {c : C} {e : WorkerEvent} (h : workerEvent x c e = some y) :
    y.conns c = x.conns c ∨
      ∃ e', e' ≠ ConnEvent.close ∧ connStep (x.conns c) e' = some (y.conns c) := by
  unfold workerEvent at h
  split at h
  · exact workerStep_conn h
  · exact .inl (Option.some.inj h ▸ rfl)
  · exact .inl (Option.some.inj h ▸ by rw [detachThen_conns])
  · split at h
    · exact absurd h (by simp)
    · exact .inl (Option.some.inj h ▸ by rw [detachThen_conns])
  · exact .inl (Option.some.inj h ▸ rfl)
  · exact .inl (Option.some.inj h ▸ rfl)
  · split at h
    · exact .inl (Option.some.inj h ▸ rfl)
    · exact absurd h (by simp)
  · split at h
    · exact absurd h (by simp)
    · exact .inl (Option.some.inj h ▸ by rw [detachThen_conns])
  · exact absurd h (by simp)

/-- What another connection's worker leaves alone. -/
theorem workerEvent_conn_other {c d : C} {e : WorkerEvent} (h : workerEvent x c e = some y)
    (hne : d ≠ c) : y.conns d = x.conns d := by
  rcases workerEvent_moves h with hmoves | ⟨i, pid, kind, -, -, rfl⟩ | ⟨f, next, -, rfl⟩
  · exact hmoves.conns d hne
  · rfl
  · rfl

/-- **Each connection runs as one connection**: a step of the threads is a step of it, or leaves it
    alone, and nobody drops it. -/
theorem threadStep_conn {e : ThreadEvent H C} (h : threadStep x e = some y) (c : C) :
    y.conns c = x.conns c ∨
      ∃ e', e' ≠ ConnEvent.close ∧ connStep (x.conns c) e' = some (y.conns c) := by
  cases e with
  | enter k pid tid entry =>
    obtain ⟨-, -, rfl⟩ := threadStep_enter h
    exact .inl rfl
  | handler k =>
    obtain ⟨hd, -, hstep⟩ := Option.bind_eq_some_iff.mp h
    rcases handlerStep_cases hstep with ⟨entry, hd', -, rfl, -⟩ | ⟨s, pc, set, -, rfl⟩
    · exact .inl rfl
    · cases set with
      | none => exact .inl rfl
      | some set => exact .inl rfl
  | socket d e =>
    by_cases hc : c = d
    · subst hc
      exact .inr ⟨e, socketStep_conn h⟩
    · exact .inl ((socketStep_moves h).conns c hc)
  | worker d e =>
    by_cases hc : c = d
    · subst hc
      exact workerEvent_conn h
    · exact .inl (workerEvent_conn_other h hc)

/-- Every connection stays open. -/
theorem threadStep_open {e : ThreadEvent H C} (hx : ∀ c, Open (x.conns c))
    (h : threadStep x e = some y) (c : C) : Open (y.conns c) := by
  rcases threadStep_conn h c with hsame | ⟨e', he, hstep⟩
  · rw [hsame]
    exact hx c
  · exact (hx c).step he hstep

/-! ## The claim -/

/-- A connection whose receive call failed so is noticed: every further `read` answers the error,
    and the worker does not wait for an event that nobody will set. -/
structure BreakNoticed (x : Threads H C) (c : C) (err : SceError) : Prop where
  reads : ∀ es r answer, LTS.exec connStep (x.conns c) es = some r → ConnEvent.call ∈ es →
    r.user = .idle (some answer) → answer = .err err
  returns : ∀ es y turn, LTS.exec threadStep x es = some y → (y.workers c).pc = .waiting turn →
    hasBit (y.flags c) evWakeWorker = true

/-- **The error is not noticed**: once the receive thread has returned after a receive call that
    failed and the worker has read all bytes, a further `read` answers `None`, in every run. -/
theorem break_not_noticed (states : C → ConnState) (es : List (ThreadEvent H C)) (c : C)
    (err : SceError) (h : LTS.exec threadStep (Threads.start states) es = some x)
    (hfail : ThreadEvent.socket c (.fail err) ∈ es) (hended : (x.conns c).rx = .ended)
    (hread : (x.conns c).returned = (x.conns c).received.flatten) : ¬ BreakNoticed x c err := by
  have hstart : ∀ d, Open ((Threads.start states : Threads H C).conns d) := fun d =>
    ⟨connInv_start (states d), by simp [Threads.start, ConnRun.start]⟩
  have hopens : ∀ (y : Threads H C) (f : ThreadEvent H C) z, (∀ d, Open (y.conns d)) →
      threadStep y f = some z → ∀ d, Open (z.conns d) := fun _ _ _ hy hstep => threadStep_open hy hstep
  have hopen := LTS.exec_keeps hopens es hstart h
  have hfails : ∀ y z : Threads H C, (∀ d, Open (y.conns d)) →
      threadStep y (.socket c (.fail err)) = some z → Failing (z.conns c) err :=
    fun y z hy hstep =>
      (hy c).fails (socketStep_conn (show socketStep y c (.fail err) = _ from hstep)).2
  have hkeeps : ∀ (y : Threads H C) (f : ThreadEvent H C) z, (∀ d, Open (y.conns d)) →
      Failing (y.conns c) err → threadStep y f = some z → Failing (z.conns c) err := by
    intro y f z _ hfailing hstep
    rcases threadStep_conn hstep c with hsame | ⟨e', he, hconn⟩
    · rw [hsame]
      exact hfailing
    · exact hfailing.step he hconn
  have hfailing := LTS.exec_since hopens hfails hkeeps es hstart hfail h
  intro hnoticed
  obtain ⟨es', r, hrun, hcall, huser⟩ := (hfailing.deaf (hopen c) hended hread).reads
  exact absurd (hnoticed.reads es' r _ hrun hcall huser) (by simp)

/-- A worker that waits for an event, whose receive thread has ended. -/
structure WaitsDeaf (x : Threads H C) (c : C) (turn : Turn) : Prop where
  rx : (x.conns c).rx = .ended
  pc : (x.workers c).pc = .waiting turn
  bit : hasBit (x.flags c) evWakeWorker = false

/-- Only a handler can set the bit. -/
theorem WaitsDeaf.step {c : C} {turn : Turn} (hx : WaitsDeaf x c turn) {e : ThreadEvent H C}
    (he : ∀ k, e ≠ .handler k) (h : threadStep x e = some y) : WaitsDeaf y c turn := by
  cases e with
  | enter k pid tid entry =>
    obtain ⟨-, -, rfl⟩ := threadStep_enter h
    exact ⟨hx.rx, hx.pc, hx.bit⟩
  | handler k => exact absurd rfl (he k)
  | socket d e =>
    have hmoves := socketStep_moves h
    by_cases hc : c = d
    · -- its thread has ended, and the socket has nobody to give to
      subst hc
      have hrx := hx.rx
      cases e with
      | rx => simp [threadStep, socketStep, hrx, connStep, RxThread.step] at h
      | recv chunk => simp [threadStep, socketStep, hrx, connStep] at h
      | eof => simp [threadStep, socketStep, hrx, connStep] at h
      | fail err => simp [threadStep, socketStep, hrx, connStep] at h
      | call => simp [threadStep, socketStep] at h
      | read => simp [threadStep, socketStep] at h
      | close => simp [threadStep, socketStep] at h
    · exact ⟨by rw [hmoves.conns c hc, hx.rx], by rw [hmoves.workers, hx.pc],
        by rw [hmoves.flags c hc, hx.bit]⟩
  | worker d e =>
    by_cases hc : c = d
    · subst hc
      have hpc := hx.pc
      have hbit := hx.bit
      cases e with
      | step => simp [threadStep, workerEvent, workerStep, hpc, hbit] at h
      | _ => simp [threadStep, workerEvent, hpc] at h
    · rcases workerEvent_moves h with hmoves | ⟨i, pid, kind, -, -, rfl⟩ | ⟨f, next, -, rfl⟩
      · exact ⟨by rw [hmoves.conns c hc, hx.rx], by rw [hmoves.workers c hc, hx.pc],
          by rw [hmoves.flags c hc, hx.bit]⟩
      · exact ⟨hx.rx, (congrArg WorkerThread.pc (Function.update_of_ne hc _ _)).trans hx.pc, hx.bit⟩
      · refine ⟨hx.rx, (congrArg WorkerThread.pc (Function.update_of_ne hc _ _)).trans hx.pc, ?_⟩
        show hasBit (Function.update x.flags f (x.flags f &&& ~~~evWakeWorker) c) _ = false
        by_cases hf : c = f
        · rw [hf, Function.update_self]
          exact hasBit_clear_self _ _
        · rw [Function.update_of_ne hf]
          exact hx.bit

/-- **The worker waits for ever**: as long as no handler goes on, nobody wakes it. -/
theorem broken_waits (es : List (ThreadEvent H C)) (c : C) (turn : Turn)
    (hx : WaitsDeaf x c turn) (hquiet : ∀ e ∈ es, ∀ k, e ≠ ThreadEvent.handler k)
    (h : LTS.exec threadStep x es = some y) : WaitsDeaf y c turn := by
  have hstep : ∀ (x : Threads H C) (e : ThreadEvent H C) y, WaitsDeaf x c turn →
      (∀ k, e ≠ ThreadEvent.handler k) → threadStep x e = some y → WaitsDeaf y c turn :=
    fun _ _ _ hx he hstep => hx.step he hstep
  exact LTS.exec_invariant hstep es hx (LTS.Along.of_mem es fun e he _ => hquiet e he) h

end Threads

/-- The receive thread comes to its receive call, which fails, and ends. -/
def recvFails (err : SceError) : List (ThreadEvent Unit Unit) :=
  [.socket () .rx, .socket () .rx, .socket () (.fail err), .socket () .rx, .socket () .rx]

/-- "Connection reset by peer", before a single byte has come. -/
def connReset : SceError := ⟨0x80410136#32, "ksceNetRecvfrom"⟩

theorem break_not_noticed_reset : ∃ x : Threads Unit Unit,
    LTS.exec threadStep (Threads.start fun _ => .new) (recvFails connReset) = some x ∧
      ¬ BreakNoticed x () connReset := by
  have hrun : ∃ x : Threads Unit Unit,
      LTS.exec threadStep (Threads.start fun _ => .new) (recvFails connReset) = some x ∧
      (x.conns ()).rx = .ended ∧ (x.conns ()).returned = (x.conns ()).received.flatten :=
    ⟨_, rfl, rfl, rfl⟩
  obtain ⟨x, hx, hended, hread⟩ := hrun
  exact ⟨x, hx, break_not_noticed _ _ () connReset hx (by simp [recvFails]) hended hread⟩

/-- **The error is lost**. -/
theorem break_unnoticed :
    ¬ ∀ (H C : Type) (_ : DecidableEq H) (_ : DecidableEq C) (states : C → ConnState)
      (es : List (ThreadEvent H C)) (x : Threads H C) (c : C) (err : SceError),
      LTS.exec threadStep (Threads.start states) es = some x →
      ThreadEvent.socket c (.fail err) ∈ es → (x.conns c).rx = .ended →
      (x.conns c).returned = (x.conns c).received.flatten → BreakNoticed x c err := by
  intro hclaim
  have hnoticed := hclaim Unit Unit inferInstance inferInstance (fun _ => .new)
    (recvFails connReset) _ () connReset rfl (by simp [recvFails]) rfl rfl
  exact absurd (hnoticed.reads [.call, .read, .read] _ _ rfl List.mem_cons_self rfl) (by simp)

end VitaGdb
