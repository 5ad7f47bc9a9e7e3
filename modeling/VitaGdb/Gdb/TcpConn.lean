/-
  `gdb/tcpconn.rs`: the receive thread of a connection and the worker that reads it, atomic step by
  atomic step.

  The two share a buffer of one chunk.  `len` says whose it is: the receive thread fills it while
  `len` is 0, and stores the length of the chunk when it is done; the worker reads it byte by byte
  with its own cursor `read_len`, and stores 0 after the last one.  `closed` is tested before `len`
  on both sides.

  The socket delivers any chunks of 1 to 64 bytes, and then, or never, the end of the file or an
  error; the kernel copies a chunk byte by byte while the worker goes on.  A wait of the receive
  thread may end at any time (`Gdb.WakeUps` is about the event flag).  `ConnInv` ties both program
  counters to the buffer, and `reads_faithful` is what follows at any point of any run: the bytes
  the worker was given are the first ones of those received, in order.
-/
import VitaGdb.Gdb.EventLoop
import VitaGdb.Lib.Runs

namespace VitaGdb

deriving instance DecidableEq for ReadResult

/-! ## The buffer and its two sides -/

/-- `BUFFER_SIZE`. -/
def bufferSize : Nat := 0x40

/-- `ConnState`. -/
structure ConnState where
  buf : Vector U8 bufferSize
  len : Nat
  closed : Bool
  err : Option SceError

/-- `ConnState::reset`. -/
def ConnState.reset (s : ConnState) : ConnState := { s with len := 0, closed := false, err := none }

/-- The reading half of a `TcpConn`. -/
structure TcpConn where
  state : ConnState
  readLen : Nat

/-- `TcpConn::new`, on a pool entry that has just been claimed. -/
def TcpConn.new (state : ConnState) : TcpConn := { state := state.reset, readLen := 0 }

/-- `read`, with nothing in between. -/
def TcpConn.read (c : TcpConn) : Outcome SceError ReadResult × TcpConn :=
  if c.state.closed then
    match c.state.err with
    | some err => (.ok (.err err), c)
    | none => (.ok .closed, c)
  else if c.state.len = 0 then (.ok .none, c)
  else
    match c.state.buf[c.readLen]? with
    | none => (.panic, c)
    | some byte =>
      if c.readLen + 1 = c.state.len then
        (.ok (.byte byte), { state := { c.state with len := 0 }, readLen := 0 })
      else (.ok (.byte byte), { c with readLen := c.readLen + 1 })

/-- Where a call of `read` is. -/
inductive Reading where
  | entered
  | sawClosed
  | opened
  | loaded (len : Nat)
  /-- It has read the last byte; `len` is to be stored. -/
  | emptied (byte : U8)
  /-- `EV_WAKE_READER` is to be set. -/
  | released (byte : U8)
  deriving DecidableEq

/-- The next atomic step of `read`; `inr` is its answer. -/
def Reading.step (c : TcpConn) : Reading → TcpConn × (Reading ⊕ Outcome SceError ReadResult)
  | .entered => (c, .inl (if c.state.closed then .sawClosed else .opened))
  | .sawClosed =>
    match c.state.err with
    | some err => (c, .inr (.ok (.err err)))
    | none => (c, .inr (.ok .closed))
  | .opened => (c, if c.state.len = 0 then .inr (.ok .none) else .inl (.loaded c.state.len))
  | .loaded len =>
    match c.state.buf[c.readLen]? with
    | none => (c, .inr .panic)
    | some byte =>
      if c.readLen + 1 = len then ({ c with readLen := 0 }, .inl (.emptied byte))
      else ({ c with readLen := c.readLen + 1 }, .inr (.ok (.byte byte)))
  | .emptied byte => ({ c with state := { c.state with len := 0 } }, .inl (.released byte))
  | .released byte => (c, .inr (.ok (.byte byte)))

/-- Where `net_rx_thread` is. -/
inductive RxThread where
  | looping
  | opened
  /-- In the wait for `EV_WAKE_READER`. -/
  | waiting
  /-- In `ksceNetRecvfrom`, and nothing has come. -/
  | receiving
  /-- In `ksceNetRecvfrom`, which has copied so many bytes of the chunk. -/
  | copying (chunk : List U8) (copied : Nat)
  | storing (n : Nat)
  /-- `EV_WAKE_WORKER` is to be set, for a chunk. -/
  | waking
  | failing (err : SceError)
  | closing
  /-- `EV_WAKE_WORKER` is to be set, before the thread returns. -/
  | wakingLast
  | ended
  deriving DecidableEq

/-- The next atomic step of `net_rx_thread`; `none` where it is up to the socket, or has ended. -/
def RxThread.step (s : ConnState) : RxThread → Option (ConnState × RxThread)
  | .looping => some (s, if s.closed then .ended else .opened)
  | .opened => some (s, if s.len ≠ 0 then .waiting else .receiving)
  | .waiting => some (s, .looping)
  | .receiving => none
  | .copying chunk copied =>
    match chunk[copied]? with
    | some byte =>
      some ({ s with buf := s.buf.setIfInBounds copied byte }, .copying chunk (copied + 1))
    | none => some (s, .storing chunk.length)
  | .storing n => some ({ s with len := n }, .waking)
  | .waking => some (s, .looping)
  | .failing err => some ({ s with err := some err }, .wakingLast)
  | .closing => some ({ s with closed := true }, .wakingLast)
  | .wakingLast => some (s, .ended)
  | .ended => none

/-! ## Runs of a connection -/

/-- What the worker is doing with the connection. -/
inductive ConnUser where
  /-- Outside `read`, after a call with this answer (or none yet). -/
  | idle (answer : Option ReadResult)
  | reading (r : Reading)
  | panicked
  /-- In `close`, or after it: the connection is dropped and is not read again. -/
  | closed
  deriving DecidableEq

/-- A connection, and what has come in and gone out of it. -/
structure ConnRun where
  conn : TcpConn
  rx : RxThread
  user : ConnUser
  received : List (List U8)
  returned : List U8

/-- A new connection. -/
def ConnRun.start (state : ConnState) : ConnRun where
  conn := TcpConn.new state
  rx := .looping
  user := .idle none
  received := []
  returned := []

inductive ConnEvent where
  /-- The next step of the receive thread. -/
  | rx
  /-- What `ksceNetRecvfrom` gives: a chunk, the end of the file, an error. -/
  | recv (chunk : List U8)
  | eof
  | fail (err : SceError)
  /-- The worker calls `read`. -/
  | call
  /-- The next step of its call. -/
  | read
  /-- The worker drops the connection. -/
  | close

/-- The byte a call of `read` ends with. -/
def byteOf : Outcome SceError ReadResult → List U8
  | .ok (.byte byte) => [byte]
  | _ => []

/-- The worker after its call has ended. -/
def ConnUser.answered : Outcome SceError ReadResult → ConnUser
  | .ok answer => .idle (some answer)
  | _ => .panicked

/-- One atomic step of a connection. -/
def connStep (x : ConnRun) : ConnEvent → Option ConnRun
  | .rx =>
    (x.rx.step x.conn.state).map fun (state, rx) =>
      { x with conn := { x.conn with state := state }, rx := rx }
  | .recv chunk =>
    match x.rx with
    | .receiving =>
      if 0 < chunk.length ∧ chunk.length ≤ bufferSize then
        some { x with rx := .copying chunk 0, received := x.received ++ [chunk] }
      else none
    | _ => none
  | .eof =>
    match x.rx with
    | .receiving => some { x with rx := .closing }
    | _ => none
  | .fail err =>
    match x.rx with
    | .receiving => some { x with rx := .failing err }
    | _ => none
  | .call =>
    match x.user with
    | .idle _ => some { x with user := .reading .entered }
    | _ => none
  | .read =>
    match x.user with
    | .reading r =>
      match r.step x.conn with
      | (conn, .inl r) => some { x with conn := conn, user := .reading r }
      | (conn, .inr answer) =>
        some { x with
          conn := conn
          user := .answered answer
          returned := x.returned ++ byteOf answer }
    | _ => none
  | .close =>
    match x.user with
    | .idle _ =>
      some { x with
        conn := { x.conn with state := { x.conn.state with closed := true } }
        user := .closed }
    | _ => none

/-- A step inside a call of `read`, and the run behind it. -/
theorem exec_read_goes {x : ConnRun} {r r' : Reading} {conn : TcpConn}
    (hstep : r.step x.conn = (conn, .inl r')) (events : List ConnEvent) :
    LTS.exec connStep { x with user := .reading r } (.read :: events) =
      LTS.exec connStep { x with conn := conn, user := .reading r' } events := by
  have hread : connStep { x with user := .reading r } .read =
      some { x with conn := conn, user := .reading r' } := by
    simp only [connStep, hstep]
  rw [LTS.exec_cons, hread, Option.bind_some]

/-- The last step of a call of `read`. -/
theorem exec_read_ends {x : ConnRun} {r : Reading} {conn : TcpConn}
    {answer : Outcome SceError ReadResult} (hstep : r.step x.conn = (conn, .inr answer)) :
    LTS.exec connStep { x with user := .reading r } [.read] =
      some { x with
        conn := conn
        user := .answered answer
        returned := x.returned ++ byteOf answer } := by
  have hread : connStep { x with user := .reading r } .read =
      some { x with
        conn := conn
        user := .answered answer
        returned := x.returned ++ byteOf answer } := by
    simp only [connStep, hstep]
  rw [LTS.exec_cons, hread, Option.bind_some, LTS.exec_nil]

/-- **`read` is its atomic steps.** -/
theorem read_run {x : ConnRun} {answer : Option ReadResult} (hidle : x.user = .idle answer) :
    ∃ n, LTS.exec connStep x (.call :: List.replicate n .read) =
      some { x with
        conn := x.conn.read.2
        user := .answered x.conn.read.1
        returned := x.returned ++ byteOf x.conn.read.1 } := by
  have hcall : connStep x .call = some { x with user := .reading .entered } := by
    simp only [connStep, hidle]
  simp only [LTS.exec_cons, hcall, Option.bind_some]
  unfold TcpConn.read
  by_cases hclosed : x.conn.state.closed = true
  · have hentered : Reading.entered.step x.conn = (x.conn, .inl .sawClosed) := by
      rw [Reading.step, if_pos hclosed]
    refine ⟨2, (exec_read_goes hentered [.read]).trans ?_⟩
    rw [if_pos hclosed]
    cases herr : x.conn.state.err with
    | none => exact exec_read_ends (by rw [Reading.step, herr])
    | some err => exact exec_read_ends (by rw [Reading.step, herr])
  have hentered : Reading.entered.step x.conn = (x.conn, .inl .opened) := by
    rw [Reading.step, if_neg hclosed]
  rw [if_neg hclosed]
  by_cases hlen : x.conn.state.len = 0
  · refine ⟨2, (exec_read_goes hentered [.read]).trans ?_⟩
    rw [if_pos hlen]
    exact exec_read_ends (by rw [Reading.step, if_pos hlen])
  have hopened : Reading.opened.step x.conn = (x.conn, .inl (.loaded x.conn.state.len)) := by
    rw [Reading.step, if_neg hlen]
  rw [if_neg hlen]
  cases hbyte : x.conn.state.buf[x.conn.readLen]? with
  | none =>
    refine ⟨3, (exec_read_goes hentered [.read, .read]).trans
      ((exec_read_goes hopened [.read]).trans ?_)⟩
    exact exec_read_ends (by rw [Reading.step, hbyte])
  | some byte =>
    dsimp only
    by_cases hlast : x.conn.readLen + 1 = x.conn.state.len
    · have hloaded : (Reading.loaded x.conn.state.len).step x.conn =
          ({ x.conn with readLen := 0 }, .inl (.emptied byte)) := by
        rw [Reading.step, hbyte]
        exact if_pos hlast
      refine ⟨5, (exec_read_goes hentered _).trans ((exec_read_goes hopened _).trans
        ((exec_read_goes hloaded _).trans ?_))⟩
      rw [if_pos hlast]
      rfl
    · have hloaded : (Reading.loaded x.conn.state.len).step x.conn =
          ({ x.conn with readLen := x.conn.readLen + 1 }, .inr (.ok (.byte byte))) := by
        rw [Reading.step, hbyte]
        exact if_neg hlast
      refine ⟨3, (exec_read_goes hentered [.read, .read]).trans
        ((exec_read_goes hopened [.read]).trans ?_)⟩
      rw [if_neg hlast]
      exact exec_read_ends hloaded

/-! ## Who has the buffer -/

namespace ConnRun

/-- The byte a call has read and will answer with. -/
def inFlight (x : ConnRun) : List U8 :=
  match x.user with
  | .reading (.emptied byte) | .reading (.released byte) => [byte]
  | _ => []

/-- The bytes of the buffer that are left to read. -/
def held (x : ConnRun) : List U8 :=
  match x.user with
  | .reading (.emptied _) => []
  | _ => (x.conn.state.buf.toList.take x.conn.state.len).drop x.conn.readLen

/-- The bytes the receive thread has and the worker cannot see yet. -/
def arriving (x : ConnRun) : List U8 :=
  match x.rx with
  | .copying chunk _ => chunk
  | .storing n => x.conn.state.buf.toList.take n
  | _ => []

/-- The last chunk has this length. -/
def LastChunk (x : ConnRun) (n : Nat) : Prop :=
  ∃ chunk, x.received.getLast? = some chunk ∧ chunk.length = n

/-- From its load of `len` on until its store, the receive thread has the buffer. -/
def RxOwns (x : ConnRun) : Prop :=
  match x.rx with
  | .receiving | .closing | .failing _ => x.conn.state.len = 0
  | .copying chunk copied =>
    x.conn.state.len = 0 ∧ 0 < chunk.length ∧ chunk.length ≤ bufferSize ∧ x.LastChunk chunk.length ∧
      x.conn.state.buf.toList.take copied = chunk.take copied
  | .storing n => x.conn.state.len = 0 ∧ 0 < n ∧ n ≤ bufferSize ∧ x.LastChunk n
  | _ => True

/-- From its load of `len` on until its store, the worker has it. -/
def UserOwns (x : ConnRun) : Prop :=
  match x.user with
  | .reading (.loaded n) => n = x.conn.state.len ∧ n ≠ 0
  | .reading (.emptied _) => x.conn.readLen = 0 ∧ x.conn.state.len ≠ 0
  | .reading .sawClosed | .idle (some .closed) => x.conn.state.closed = true
  | .panicked => False
  | _ => True

/-- The cursor is in the chunk. -/
def CursorFits (x : ConnRun) : Prop :=
  x.conn.state.len = 0 ∧ x.conn.readLen = 0 ∨
    x.conn.readLen < x.conn.state.len ∧ x.conn.state.len ≤ bufferSize ∧ x.LastChunk x.conn.state.len

/-- The receive thread closes the connection when the buffer is empty, and then ends. -/
def ClosedLast (x : ConnRun) : Prop :=
  x.conn.state.closed = true →
    x.user = .closed ∨ (x.rx = .wakingLast ∨ x.rx = .ended) ∧ x.conn.state.len = 0

end ConnRun

/-- What ties the two sides of a connection together. -/
structure ConnInv (x : ConnRun) : Prop where
  bytes : x.received.flatten = x.returned ++ x.inFlight ++ x.held ++ x.arriving
  rxOwns : x.RxOwns
  userOwns : x.UserOwns
  cursor : x.CursorFits
  closedLast : x.ClosedLast

theorem connInv_start (state : ConnState) : ConnInv (ConnRun.start state) where
  bytes := rfl
  rxOwns := trivial
  userOwns := trivial
  cursor := .inl ⟨rfl, rfl⟩
  closedLast := fun h => by
    have : false = true := h
    contradiction

variable {x x' : ConnRun}

/-- An empty buffer has nothing to read. -/
theorem ConnRun.held_nil (hlen : x.conn.state.len = 0) : x.held = [] := by
  unfold ConnRun.held
  split
  · rfl
  · rw [hlen, List.take_zero, List.drop_nil]

/-- Until the last byte is read, what is left is what the cursor has not passed. -/
theorem ConnRun.held_eq (huser : ∀ byte, x.user ≠ .reading (.emptied byte)) :
    x.held = (x.conn.state.buf.toList.take x.conn.state.len).drop x.conn.readLen := by
  unfold ConnRun.held
  split
  · rename_i byte hemptied
    exact absurd hemptied (huser byte)
  · rfl

/-- The worker has read the last byte of a buffer that is still marked full. -/
theorem ConnInv.not_emptied (h : ConnInv x) (hlen : x.conn.state.len = 0) (byte : U8) :
    x.user ≠ .reading (.emptied byte) := by
  intro hemptied
  have huser := h.userOwns
  rw [ConnRun.UserOwns, hemptied] at huser
  exact huser.2 hlen

/-- One more byte of the chunk is in the buffer. -/
theorem take_setIfInBounds {buf : Vector U8 bufferSize} {chunk : List U8} {i : Nat} {byte : U8}
    (hi : i < bufferSize) (hbyte : chunk[i]? = some byte)
    (htake : buf.toList.take i = chunk.take i) :
    (buf.setIfInBounds i byte).toList.take (i + 1) = chunk.take (i + 1) := by
  have hlength : buf.toList.length = bufferSize := buf.length_toList
  rw [Vector.toList_setIfInBounds, List.take_add_one, List.take_set_of_le (Nat.le_refl i), htake,
    List.take_add_one, hbyte, List.getElem?_set_self (by omega)]

/-! ## What a step keeps -/

/-- A store of the receive thread takes nothing from the worker, which is not using the buffer. -/
theorem ConnInv.userOwns_set (h : ConnInv x) (hlen : x.conn.state.len = 0) {state : ConnState}
    {rx : RxThread} (hclosed : x.conn.state.closed = true → state.closed = true) :
    ConnRun.UserOwns { x with conn := { x.conn with state := state }, rx := rx } := by
  have huser := h.userOwns
  unfold ConnRun.UserOwns at huser ⊢
  cases hu : x.user with
  | idle answer =>
    rw [hu] at huser
    cases answer with
    | none => trivial
    | some answer =>
      cases answer with
      | closed => exact hclosed huser
      | _ => trivial
  | reading r =>
    rw [hu] at huser
    cases r with
    | loaded n => exact absurd (huser.1.trans hlen) huser.2
    | emptied byte => exact absurd hlen huser.2
    | sawClosed => exact hclosed huser
    | _ => trivial
  | panicked =>
    rw [hu] at huser
    exact huser
  | closed => trivial

/-- The receive thread goes on, and touches nothing. -/
theorem ConnInv.moveRx (h : ConnInv x) (rx : RxThread)
    (harriving : ConnRun.arriving { x with rx := rx } = x.arriving)
    (howns : ConnRun.RxOwns { x with rx := rx })
    (hclosed : ConnRun.ClosedLast { x with rx := rx }) : ConnInv { x with rx := rx } where
  bytes := by
    rw [harriving]
    exact h.bytes
  rxOwns := howns
  userOwns := h.userOwns
  cursor := h.cursor
  closedLast := hclosed

/-- Before its last two steps, the receive thread has not closed the connection: if it is closed, it
    was the worker, and it stays so. -/
theorem ConnInv.closedLast_rx (h : ConnInv x) (hlast : x.rx ≠ .wakingLast) (hended : x.rx ≠ .ended)
    {state : ConnState} (hclosed : state.closed = x.conn.state.closed) (rx : RxThread) :
    ConnRun.ClosedLast { x with conn := { x.conn with state := state }, rx := rx } := by
  intro hc
  rcases h.closedLast (hclosed.symm.trans hc) with huser | ⟨hrx | hrx, -⟩
  · exact .inl huser
  · exact absurd hrx hlast
  · exact absurd hrx hended

/-- Copying a byte of the chunk. -/
theorem ConnInv.copy (h : ConnInv x) {chunk : List U8} {copied : Nat} {byte : U8}
    (hrx : x.rx = .copying chunk copied) (hbyte : chunk[copied]? = some byte) :
    ConnInv { x with
      conn := { x.conn with state := { x.conn.state with
        buf := x.conn.state.buf.setIfInBounds copied byte } }
      rx := .copying chunk (copied + 1) } := by
  have howns := h.rxOwns
  rw [ConnRun.RxOwns, hrx] at howns
  obtain ⟨hlen, hpos, hle, hlast, htake⟩ := howns
  have hcopied : copied < bufferSize := by
    have := (List.getElem?_eq_some_iff.mp hbyte).1
    omega
  have harriving : x.arriving = chunk := by rw [ConnRun.arriving, hrx]
  have hbytes := h.bytes
  rw [ConnRun.held_nil hlen, harriving] at hbytes
  constructor
  · rw [ConnRun.held_nil (by exact hlen)]
    exact hbytes
  · exact ⟨hlen, hpos, hle, hlast, take_setIfInBounds hcopied hbyte htake⟩
  · exact h.userOwns
  · exact h.cursor
  · exact h.closedLast_rx (by simp [hrx]) (by simp [hrx]) (by rfl) _

/-- The whole chunk is copied. -/
theorem ConnInv.copied (h : ConnInv x) {chunk : List U8} {copied : Nat}
    (hrx : x.rx = .copying chunk copied) (hend : chunk[copied]? = none) :
    ConnInv { x with rx := .storing chunk.length } := by
  have howns := h.rxOwns
  rw [ConnRun.RxOwns, hrx] at howns
  obtain ⟨hlen, hpos, hle, hlast, htake⟩ := howns
  have hall : chunk.length ≤ copied := List.getElem?_eq_none_iff.mp hend
  refine h.moveRx _ ?_ ⟨hlen, hpos, hle, hlast⟩
    (h.closedLast_rx (by simp [hrx]) (by simp [hrx]) rfl _)
  have harriving : x.arriving = chunk := by rw [ConnRun.arriving, hrx]
  rw [harriving]
  calc x.conn.state.buf.toList.take chunk.length
      = (x.conn.state.buf.toList.take copied).take chunk.length := by
        rw [List.take_take, Nat.min_eq_left hall]
    _ = chunk := by rw [htake, List.take_take, Nat.min_eq_left hall, List.take_length]

/-- The store of `len` hands the chunk to the worker. -/
theorem ConnInv.store (h : ConnInv x) {n : Nat} (hrx : x.rx = .storing n) :
    ConnInv { x with
      conn := { x.conn with state := { x.conn.state with len := n } }
      rx := .waking } := by
  have howns := h.rxOwns
  rw [ConnRun.RxOwns, hrx] at howns
  obtain ⟨hlen, hpos, hle, hlast⟩ := howns
  have hread : x.conn.readLen = 0 := by
    rcases h.cursor with ⟨-, hread⟩ | ⟨hlt, -⟩
    · exact hread
    · omega
  have harriving : x.arriving = x.conn.state.buf.toList.take n := by rw [ConnRun.arriving, hrx]
  have hbytes := h.bytes
  rw [ConnRun.held_nil hlen, List.append_nil, harriving] at hbytes
  constructor
  · rw [ConnRun.held_eq (by exact h.not_emptied hlen)]
    show _ = _ ++ List.drop x.conn.readLen (List.take n _) ++ []
    rw [hread, List.drop_zero, List.append_nil]
    exact hbytes
  · trivial
  · exact h.userOwns_set hlen id
  · exact .inr ⟨by show x.conn.readLen < n; omega, hle, hlast⟩
  · exact h.closedLast_rx (by simp [hrx]) (by simp [hrx]) (by rfl) _

/-- **A step of the receive thread** keeps the invariant. -/
theorem ConnInv.rx (h : ConnInv x) (hstep : connStep x .rx = some x') : ConnInv x' := by
  rw [connStep, Option.map_eq_some_iff] at hstep
  obtain ⟨⟨state, rx⟩, hstep, rfl⟩ := hstep
  have howns := h.rxOwns
  rw [ConnRun.RxOwns] at howns
  cases hrx : x.rx with
  | looping =>
    rw [hrx] at hstep
    obtain ⟨rfl, rfl⟩ := Prod.mk.inj (Option.some.inj hstep)
    have harriving : x.arriving = [] := by rw [ConnRun.arriving, hrx]
    have hlast := @ConnInv.closedLast_rx x h (by simp [hrx]) (by simp [hrx]) _ rfl
    by_cases hclosed : x.conn.state.closed = true
    · rw [if_pos hclosed]
      exact h.moveRx .ended harriving.symm trivial (hlast .ended)
    · rw [if_neg hclosed]
      exact h.moveRx .opened harriving.symm trivial (hlast .opened)
  | opened =>
    rw [hrx] at hstep
    obtain ⟨rfl, rfl⟩ := Prod.mk.inj (Option.some.inj hstep)
    have harriving : x.arriving = [] := by rw [ConnRun.arriving, hrx]
    have hlast := @ConnInv.closedLast_rx x h (by simp [hrx]) (by simp [hrx]) _ rfl
    by_cases hlen : x.conn.state.len = 0
    · rw [if_neg (not_not.mpr hlen)]
      exact h.moveRx .receiving harriving.symm hlen (hlast .receiving)
    · rw [if_pos hlen]
      exact h.moveRx .waiting harriving.symm trivial (hlast .waiting)
  | waiting =>
    rw [hrx] at hstep
    obtain ⟨rfl, rfl⟩ := Prod.mk.inj (Option.some.inj hstep)
    have harriving : x.arriving = [] := by rw [ConnRun.arriving, hrx]
    exact h.moveRx .looping harriving.symm trivial
      (h.closedLast_rx (by simp [hrx]) (by simp [hrx]) rfl _)
  | receiving =>
    rw [hrx] at hstep
    exact absurd hstep (by simp [RxThread.step])
  | copying chunk copied =>
    rw [hrx, RxThread.step] at hstep
    cases hbyte : chunk[copied]? with
    | some byte =>
      rw [hbyte] at hstep
      obtain ⟨rfl, rfl⟩ := Prod.mk.inj (Option.some.inj hstep)
      exact h.copy hrx hbyte
    | none =>
      rw [hbyte] at hstep
      obtain ⟨rfl, rfl⟩ := Prod.mk.inj (Option.some.inj hstep)
      exact h.copied hrx hbyte
  | storing n =>
    rw [hrx] at hstep
    obtain ⟨rfl, rfl⟩ := Prod.mk.inj (Option.some.inj hstep)
    exact h.store hrx
  | waking =>
    rw [hrx] at hstep
    obtain ⟨rfl, rfl⟩ := Prod.mk.inj (Option.some.inj hstep)
    have harriving : x.arriving = [] := by rw [ConnRun.arriving, hrx]
    exact h.moveRx .looping harriving.symm trivial
      (h.closedLast_rx (by simp [hrx]) (by simp [hrx]) rfl _)
  | failing err =>
    rw [hrx] at hstep howns
    obtain ⟨rfl, rfl⟩ := Prod.mk.inj (Option.some.inj hstep)
    have harriving : x.arriving = [] := by rw [ConnRun.arriving, hrx]
    have hbytes := h.bytes
    rw [harriving] at hbytes
    exact ⟨hbytes, trivial, h.userOwns_set howns id, h.cursor, fun _ => .inr ⟨.inl rfl, howns⟩⟩
  | closing =>
    rw [hrx] at hstep howns
    obtain ⟨rfl, rfl⟩ := Prod.mk.inj (Option.some.inj hstep)
    have harriving : x.arriving = [] := by rw [ConnRun.arriving, hrx]
    have hbytes := h.bytes
    rw [harriving] at hbytes
    exact ⟨hbytes, trivial, h.userOwns_set howns fun _ => rfl, h.cursor,
      fun _ => .inr ⟨.inl rfl, howns⟩⟩
  | wakingLast =>
    rw [hrx] at hstep
    obtain ⟨rfl, rfl⟩ := Prod.mk.inj (Option.some.inj hstep)
    have harriving : x.arriving = [] := by rw [ConnRun.arriving, hrx]
    refine h.moveRx .ended harriving.symm trivial fun hclosed => ?_
    rcases h.closedLast hclosed with huser | ⟨-, hlen⟩
    · exact .inl huser
    · exact .inr ⟨.inr rfl, hlen⟩
  | ended =>
    rw [hrx] at hstep
    exact absurd hstep (by simp [RxThread.step])

/-- **What the socket delivers** keeps the invariant. -/
theorem ConnInv.recv (h : ConnInv x) {chunk : List U8} (hstep : connStep x (.recv chunk) = some x') :
    ConnInv x' := by
  simp only [connStep] at hstep
  split at hstep
  · rename_i hrx
    split at hstep
    · rename_i hchunk
      obtain rfl := Option.some.inj hstep
      have howns := h.rxOwns
      rw [ConnRun.RxOwns, hrx] at howns
      have harriving : x.arriving = [] := by rw [ConnRun.arriving, hrx]
      have hbytes := h.bytes
      rw [harriving, List.append_nil] at hbytes
      constructor
      · show (x.received ++ [chunk]).flatten = x.returned ++ x.inFlight ++ x.held ++ chunk
        rw [List.flatten_append, List.flatten_singleton, hbytes]
      · exact ⟨howns, hchunk.1, hchunk.2, ⟨chunk, List.getLast?_concat, rfl⟩, rfl⟩
      · exact h.userOwns
      · rcases h.cursor with hcursor | ⟨hlt, -⟩
        · exact .inl hcursor
        · exact absurd howns (by omega)
      · exact h.closedLast_rx (by simp [hrx]) (by simp [hrx]) (by rfl) _
    · exact absurd hstep (by simp)
  · exact absurd hstep (by simp)

/-- The end of the file, or an error, in place of a chunk. -/
theorem ConnInv.recvEnd (h : ConnInv x) (hrx : x.rx = .receiving) {rx : RxThread}
    (hend : rx = .closing ∨ ∃ err, rx = .failing err) : ConnInv { x with rx := rx } := by
  have howns := h.rxOwns
  rw [ConnRun.RxOwns, hrx] at howns
  have harriving : x.arriving = [] := by rw [ConnRun.arriving, hrx]
  have hclosed := h.closedLast_rx (by simp [hrx]) (by simp [hrx]) (by rfl) rx
  rcases hend with rfl | ⟨err, rfl⟩
  · exact h.moveRx .closing harriving.symm howns hclosed
  · exact h.moveRx (.failing err) harriving.symm howns hclosed

/-- The worker goes on, and touches nothing of the connection. -/
theorem ConnInv.moveUser (h : ConnInv x) {user : ConnUser} {returned : List U8}
    (hbytes : returned ++ ConnRun.inFlight { x with user := user } ++
      ConnRun.held { x with user := user } = x.returned ++ x.inFlight ++ x.held)
    (howns : ConnRun.UserOwns { x with user := user })
    (hclosed : x.user ≠ .closed) : ConnInv { x with user := user, returned := returned } where
  bytes := by
    show x.received.flatten = returned ++ ConnRun.inFlight { x with user := user } ++
      ConnRun.held { x with user := user } ++ x.arriving
    rw [hbytes]
    exact h.bytes
  rxOwns := h.rxOwns
  userOwns := howns
  cursor := h.cursor
  closedLast := fun hc => .inr ((h.closedLast hc).resolve_left hclosed)

/-- ... and it has no byte in its hands, neither before nor after. -/
theorem ConnInv.passOn (h : ConnInv x) {user : ConnUser} (hopen : x.user ≠ .closed)
    (hbefore : ∀ byte, x.user ≠ .reading (.emptied byte) ∧ x.user ≠ .reading (.released byte))
    (hafter : ∀ byte, user ≠ .reading (.emptied byte) ∧ user ≠ .reading (.released byte))
    (howns : ConnRun.UserOwns { x with user := user }) : ConnInv { x with user := user } := by
  have hnone : ∀ y : ConnRun, (∀ byte, y.user ≠ .reading (.emptied byte) ∧
      y.user ≠ .reading (.released byte)) → y.inFlight = [] := by
    intro y hy
    unfold ConnRun.inFlight
    split
    · rename_i byte heq
      exact absurd heq (hy byte).1
    · rename_i byte heq
      exact absurd heq (hy byte).2
    · rfl
  refine h.moveUser ?_ howns hopen
  rw [hnone x hbefore, hnone { x with user := user } hafter,
    ConnRun.held_eq fun byte => (hbefore byte).1]
  congr 1
  exact ConnRun.held_eq fun byte => (hafter byte).1

/-- The bytes left to read begin with the one under the cursor. -/
theorem ConnInv.held_cons (h : ConnInv x) (hlen : x.conn.state.len ≠ 0) {byte : U8}
    (hbyte : x.conn.state.buf[x.conn.readLen]? = some byte) :
    (x.conn.state.buf.toList.take x.conn.state.len).drop x.conn.readLen =
      byte :: (x.conn.state.buf.toList.take x.conn.state.len).drop (x.conn.readLen + 1) := by
  have hcursor : x.conn.readLen < x.conn.state.len := by
    rcases h.cursor with ⟨hzero, -⟩ | ⟨hlt, -⟩
    · exact absurd hzero hlen
    · exact hlt
  have hget : (x.conn.state.buf.toList.take x.conn.state.len)[x.conn.readLen]? = some byte := by
    rw [List.getElem?_take_of_lt hcursor, Vector.getElem?_toList, hbyte]
  obtain ⟨hlt, hget⟩ := List.getElem?_eq_some_iff.mp hget
  rw [List.drop_eq_getElem_cons hlt, hget]

/-- The worker reads a byte that is not the last one. -/
theorem ConnInv.readByte (h : ConnInv x) {n : Nat} {byte : U8} (huser : x.user = .reading (.loaded n))
    (hbyte : x.conn.state.buf[x.conn.readLen]? = some byte) (hmore : x.conn.readLen + 1 ≠ n) :
    ConnInv { x with
      conn := { x.conn with readLen := x.conn.readLen + 1 }
      user := .idle (some (.byte byte))
      returned := x.returned ++ [byte] } := by
  have howns := h.userOwns
  rw [ConnRun.UserOwns, huser] at howns
  obtain ⟨rfl, hlen⟩ := howns
  have hheld := h.held_cons hlen hbyte
  have hbytes := h.bytes
  rw [ConnRun.held_eq (by simp [huser]), hheld, ConnRun.inFlight, huser] at hbytes
  constructor
  · rw [ConnRun.held_eq (by simp)]
    show _ = x.returned ++ [byte] ++ [] ++ List.drop (x.conn.readLen + 1) _ ++ x.arriving
    rw [hbytes]
    simp
  · exact h.rxOwns
  · trivial
  · rcases h.cursor with ⟨hzero, -⟩ | ⟨hlt, hle, hlast⟩
    · exact absurd hzero hlen
    · exact .inr ⟨by show x.conn.readLen + 1 < x.conn.state.len; omega, hle, hlast⟩
  · exact fun hc => .inr ((h.closedLast hc).resolve_left (by simp [huser]))

/-- The worker reads the last byte. -/
theorem ConnInv.readLast (h : ConnInv x) {n : Nat} {byte : U8} (huser : x.user = .reading (.loaded n))
    (hbyte : x.conn.state.buf[x.conn.readLen]? = some byte) (hlast : x.conn.readLen + 1 = n) :
    ConnInv { x with
      conn := { x.conn with readLen := 0 }
      user := .reading (.emptied byte) } := by
  have howns := h.userOwns
  rw [ConnRun.UserOwns, huser] at howns
  obtain ⟨hn, hlen⟩ := howns
  have hheld := h.held_cons (by omega) hbyte
  have hnone : (x.conn.state.buf.toList.take x.conn.state.len).drop (x.conn.readLen + 1) = [] := by
    rw [hlast, hn]
    exact List.drop_of_length_le (List.length_take_le _ _)
  have hbytes := h.bytes
  rw [ConnRun.held_eq (by simp [huser]), hheld, hnone, ConnRun.inFlight, huser] at hbytes
  constructor
  · show _ = x.returned ++ [byte] ++ [] ++ x.arriving
    rw [hbytes]
    simp
  · exact h.rxOwns
  · exact ⟨rfl, by show x.conn.state.len ≠ 0; omega⟩
  · rcases h.cursor with ⟨hzero, -⟩ | ⟨hlt, hle, hchunk⟩
    · omega
    · exact .inr ⟨by show 0 < x.conn.state.len; omega, hle, hchunk⟩
  · exact fun hc => .inr ((h.closedLast hc).resolve_left (by simp [huser]))

/-- The worker's store of `len` hands the buffer back. -/
theorem ConnInv.handBack (h : ConnInv x) {byte : U8} (huser : x.user = .reading (.emptied byte)) :
    ConnInv { x with
      conn := { x.conn with state := { x.conn.state with len := 0 } }
      user := .reading (.released byte) } := by
  have howns := h.userOwns
  rw [ConnRun.UserOwns, huser] at howns
  have hheld : x.held = [] := by rw [ConnRun.held, huser]
  have hbytes := h.bytes
  rw [hheld, ConnRun.inFlight, huser] at hbytes
  constructor
  · rw [ConnRun.held_nil (by rfl)]
    exact hbytes
  · have hrx := h.rxOwns
    unfold ConnRun.RxOwns at hrx ⊢
    cases hpc : x.rx with
    | copying chunk copied =>
      rw [hpc] at hrx
      exact ⟨rfl, hrx.2⟩
    | storing n =>
      rw [hpc] at hrx
      exact ⟨rfl, hrx.2⟩
    | receiving | closing => rfl
    | failing err => rfl
    | _ => trivial
  · trivial
  · exact .inl ⟨rfl, howns.1⟩
  · intro hc
    rcases h.closedLast hc with hclosed | ⟨hrx, -⟩
    · rw [huser] at hclosed
      exact absurd hclosed (by simp)
    · exact .inr ⟨hrx, rfl⟩

/-- **A step of `read`** keeps the invariant. -/
theorem ConnInv.read (h : ConnInv x) (hstep : connStep x .read = some x') : ConnInv x' := by
  have howns := h.userOwns
  rw [ConnRun.UserOwns] at howns
  cases huser : x.user with
  | reading r =>
    simp only [connStep, huser] at hstep
    rw [huser] at howns
    have hopen : x.user ≠ .closed := by simp [huser]
    cases r with
    | entered =>
      obtain rfl := Option.some.inj hstep
      by_cases hclosed : x.conn.state.closed = true
      · rw [if_pos hclosed]
        exact h.passOn hopen (by simp [huser]) (by simp) hclosed
      · rw [if_neg hclosed]
        exact h.passOn hopen (by simp [huser]) (by simp) trivial
    | sawClosed =>
      simp only [Reading.step] at hstep
      cases herr : x.conn.state.err with
      | some err =>
        simp only [herr, byteOf, List.append_nil] at hstep
        obtain rfl := Option.some.inj hstep
        exact h.passOn hopen (by simp [huser]) (by simp [ConnUser.answered]) trivial
      | none =>
        simp only [herr, byteOf, List.append_nil] at hstep
        obtain rfl := Option.some.inj hstep
        exact h.passOn hopen (by simp [huser]) (by simp [ConnUser.answered]) howns
    | opened =>
      simp only [Reading.step] at hstep
      by_cases hlen : x.conn.state.len = 0
      · simp only [if_pos hlen, byteOf, List.append_nil] at hstep
        obtain rfl := Option.some.inj hstep
        exact h.passOn hopen (by simp [huser]) (by simp [ConnUser.answered]) trivial
      · simp only [if_neg hlen] at hstep
        obtain rfl := Option.some.inj hstep
        exact h.passOn hopen (by simp [huser]) (by simp) ⟨rfl, hlen⟩
    | loaded n =>
      simp only [Reading.step] at hstep
      cases hbyte : x.conn.state.buf[x.conn.readLen]? with
      | none =>
        have hout : bufferSize ≤ x.conn.readLen := Vector.getElem?_eq_none_iff.mp hbyte
        rcases h.cursor with ⟨hzero, -⟩ | ⟨hlt, hle, -⟩
        · exact absurd (howns.1.trans hzero) howns.2
        · omega
      | some byte =>
        simp only [hbyte] at hstep
        by_cases hlast : x.conn.readLen + 1 = n
        · simp only [if_pos hlast] at hstep
          obtain rfl := Option.some.inj hstep
          exact h.readLast huser hbyte hlast
        · simp only [if_neg hlast] at hstep
          obtain rfl := Option.some.inj hstep
          exact h.readByte huser hbyte hlast
    | emptied byte =>
      obtain rfl := Option.some.inj hstep
      exact h.handBack huser
    | released byte =>
      obtain rfl := Option.some.inj hstep
      refine h.moveUser ?_ trivial hopen
      have hinFlight : x.inFlight = [byte] := by rw [ConnRun.inFlight, huser]
      have hheld : x.held = _ := ConnRun.held_eq (by simp [huser])
      rw [hinFlight, hheld]
      show x.returned ++ [byte] ++ [] ++ _ = _
      rw [List.append_nil]
      rfl
  | idle answer => simp [connStep, huser] at hstep
  | panicked => simp [connStep, huser] at hstep
  | closed => simp [connStep, huser] at hstep

/-- **A step** of either side keeps the invariant. -/
theorem connInv_step {e : ConnEvent} (h : ConnInv x) (hstep : connStep x e = some x') :
    ConnInv x' := by
  cases e with
  | rx => exact h.rx hstep
  | recv chunk => exact h.recv hstep
  | eof =>
    simp only [connStep] at hstep
    split at hstep
    · rename_i hrx
      obtain rfl := Option.some.inj hstep
      exact h.recvEnd hrx (.inl rfl)
    · exact absurd hstep (by simp)
  | fail err =>
    simp only [connStep] at hstep
    split at hstep
    · rename_i hrx
      obtain rfl := Option.some.inj hstep
      exact h.recvEnd hrx (.inr ⟨err, rfl⟩)
    · exact absurd hstep (by simp)
  | call =>
    simp only [connStep] at hstep
    split at hstep
    · rename_i answer huser
      obtain rfl := Option.some.inj hstep
      exact h.passOn (by simp [huser]) (by simp [huser]) (by simp) trivial
    · exact absurd hstep (by simp)
  | read => exact h.read hstep
  | close =>
    simp only [connStep] at hstep
    split at hstep
    · rename_i answer huser
      obtain rfl := Option.some.inj hstep
      have hpass : ConnInv { x with user := .closed } :=
        h.passOn (by simp [huser]) (by simp [huser]) (by simp) trivial
      exact ⟨hpass.bytes, hpass.rxOwns, trivial, hpass.cursor, fun _ => .inl rfl⟩
    · exact absurd hstep (by simp)

/-! ## The stream -/

/-- What the worker may rely on. -/
structure ReadsFaithful (x : ConnRun) : Prop where
  /-- It has been given the first of the bytes received, in order. -/
  inOrder : x.returned <+: x.received.flatten
  /-- The cursor is in the chunk that came last. -/
  inBounds : ∀ n, x.user = .reading (.loaded n) →
    ∃ chunk, x.received.getLast? = some chunk ∧ x.conn.readLen < chunk.length
  noPanic : x.user ≠ .panicked
  /-- `Closed` is answered after the last byte. -/
  complete : x.user = .idle (some .closed) → x.returned = x.received.flatten

theorem ConnInv.readsFaithful (h : ConnInv x) : ReadsFaithful x := by
  have howns := h.userOwns
  rw [ConnRun.UserOwns] at howns
  constructor
  · rw [h.bytes, List.append_assoc, List.append_assoc]
    exact List.prefix_append _ _
  · intro n huser
    rw [huser] at howns
    rcases h.cursor with ⟨hzero, -⟩ | ⟨hlt, -, chunk, hchunk, hlength⟩
    · exact absurd (howns.1.trans hzero) howns.2
    · exact ⟨chunk, hchunk, by omega⟩
  · intro huser
    rw [huser] at howns
    exact howns
  · intro huser
    rw [huser] at howns
    rcases h.closedLast howns with hclosed | ⟨hrx, hlen⟩
    · exact absurd (huser.symm.trans hclosed) (by simp)
    · have harriving : x.arriving = [] := by
        rcases hrx with hrx | hrx
        · rw [ConnRun.arriving, hrx]
        · rw [ConnRun.arriving, hrx]
      have hinFlight : x.inFlight = [] := by rw [ConnRun.inFlight, huser]
      rw [h.bytes, harriving, hinFlight, ConnRun.held_nil hlen]
      simp

/-- **The receive path is a byte stream**, whatever the socket delivers and whichever side moves. -/
theorem reads_faithful (state : ConnState) (es : List ConnEvent)
    (h : LTS.exec connStep (ConnRun.start state) es = some x) : ReadsFaithful x := by
  have halong : LTS.Along connStep (fun _ _ => True) (ConnRun.start state) es :=
    LTS.Along.of_forall (fun _ _ => trivial) es
  exact (LTS.exec_invariant (fun _ _ _ hinv _ hstep => connInv_step hinv hstep) es
    (connInv_start state) halong h).readsFaithful

/-- A `ConnState` of the pool. -/
def ConnState.new : ConnState where
  buf := Vector.replicate bufferSize 0
  len := 0
  closed := false
  err := none

/-- Two chunks and the end of the file.  The worker reads the first chunk while the receive thread
    sets the event flag, and asks twice too early. -/
def readToEnd : List ConnEvent :=
  [.rx, .rx, .recv [1, 2], .rx, .call, .read, .read, .rx, .rx, .rx,
    .call, .read, .read, .read, .rx, .rx, .rx, .call, .read, .read, .read, .read, .rx, .read,
    .rx, .rx, .recv [3], .rx, .rx, .rx, .rx, .rx, .call, .read, .read, .read, .read, .read,
    .rx, .eof, .call, .read, .rx, .read, .call, .read, .read]

/-- It is given all three bytes, and then `Closed`. -/
theorem reads_faithful_toEnd :
    ∃ x, LTS.exec connStep (ConnRun.start .new) readToEnd = some x ∧
      x.user = .idle (some .closed) ∧ x.returned = [1, 2, 3] ∧ ReadsFaithful x := by
  have hrun : ∃ x, LTS.exec connStep (ConnRun.start .new) readToEnd = some x ∧
      x.user = .idle (some .closed) ∧ x.returned = [1, 2, 3] := ⟨_, rfl, rfl, rfl⟩
  obtain ⟨x, hx, huser, hreturned⟩ := hrun
  exact ⟨x, hx, huser, hreturned, reads_faithful _ _ hx⟩

end VitaGdb
