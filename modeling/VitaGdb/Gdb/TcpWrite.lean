/-
  `gdb/tcpconn.rs` and `kernel/tcp_socket.rs`: the bytes a connection sends.

  `write` puts a byte into a buffer of 64 and flushes when the buffer is full; `flush` sends what is
  in it.  A send may accept any part of what it is offered, at least a byte, or fail: the rest moves
  to the front of the buffer and is offered again.

  What the socket answers to its `n`-th send is a parameter.  The loop of `flush_write_buffer` takes
  fuel; as every send that goes through accepts a byte, more fuel than there are bytes in the buffer
  is never used up (`flushWriteBuffer_spec`).  `WriteInv` ties the buffer and what the socket
  accepted to the bytes written, and `writes_faithful` is what follows at any point of any run.
-/
import VitaGdb.Gdb.TcpConn

namespace VitaGdb

/-! ## The socket and the buffer -/

/-- A socket: its answers, and what it has accepted so far. -/
structure TcpSocket where
  /-- What the `n`-th send answers when it is offered these bytes. -/
  answer : Nat → List U8 → Except SceError Nat
  sends : Nat
  accepted : List U8

/-- `TcpSocket::send`. -/
def TcpSocket.send (s : TcpSocket) (buf : List U8) : Except SceError Nat × TcpSocket :=
  match s.answer s.sends buf with
  | .ok n =>
    (.ok n, { s with sends := s.sends + 1, accepted := s.accepted ++ buf.take n })
  | .error err => (.error err, { s with sends := s.sends + 1 })

/-- A send that goes through accepts between 1 byte and what it is offered. -/
def PartialSends (answer : Nat → List U8 → Except SceError Nat) : Prop :=
  ∀ i buf n, answer i buf = .ok n → 1 ≤ n ∧ n ≤ buf.length

/-- The writing half of a `TcpConn`. -/
structure TcpWriter where
  writeBuffer : Vector U8 bufferSize
  writeLen : Nat

namespace TcpWriter

/-- The writing half of a new connection. -/
def new : TcpWriter := { writeBuffer := Vector.replicate bufferSize 0#8, writeLen := 0 }

/-- `write_buffer[..write_len]`. -/
def pending (c : TcpWriter) : List U8 := c.writeBuffer.toList.take c.writeLen

/-- `write_buffer.copy_within(n..write_len, 0)`. -/
def copyWithin (c : TcpWriter) (n : Nat) : Vector U8 bufferSize :=
  Vector.ofFn fun i =>
    if h : i.val + n < c.writeLen ∧ i.val + n < bufferSize then c.writeBuffer[i.val + n]
    else c.writeBuffer[i]

/-- `flush_write_buffer`; `none` is a loop that has not ended. -/
def flushWriteBuffer :
    Nat → TcpWriter → TcpSocket → Option (Outcome SceError Unit × TcpWriter × TcpSocket)
  | 0, _, _ => none
  | fuel + 1, c, s =>
    if c.writeLen = 0 then some (.ok (), c, s)
    else if bufferSize < c.writeLen then some (.panic, c, s)
    else
      match s.send c.pending with
      | (.error err, s) => some (.err err, c, s)
      | (.ok n, s) =>
        if n < c.writeLen then
          flushWriteBuffer fuel { writeBuffer := c.copyWithin n, writeLen := c.writeLen - n } s
        else flushWriteBuffer fuel { c with writeLen := 0 } s

/-- The second half of `write`: store the byte, and flush a full buffer. -/
def store (fuel : Nat) (c : TcpWriter) (s : TcpSocket) (byte : U8) :
    Option (Outcome SceError Unit × TcpWriter × TcpSocket) :=
  if h : c.writeLen < bufferSize then
    let c : TcpWriter :=
      { writeBuffer := c.writeBuffer.set c.writeLen byte h, writeLen := c.writeLen + 1 }
    if c.writeLen = bufferSize then flushWriteBuffer fuel c s else some (.ok (), c, s)
  else some (.panic, c, s)

/-- `write`. -/
def write (fuel : Nat) (c : TcpWriter) (s : TcpSocket) (byte : U8) :
    Option (Outcome SceError Unit × TcpWriter × TcpSocket) :=
  if c.writeLen = bufferSize then
    match flushWriteBuffer fuel c s with
    | some (.ok (), c, s) => store fuel c s byte
    | ended => ended
  else store fuel c s byte

/-- `flush`. -/
def flush (fuel : Nat) (c : TcpWriter) (s : TcpSocket) :
    Option (Outcome SceError Unit × TcpWriter × TcpSocket) :=
  flushWriteBuffer fuel c s

/-! ## A flush -/

theorem length_pending {c : TcpWriter} (h : c.writeLen ≤ bufferSize) :
    c.pending.length = c.writeLen := by
  rw [pending, List.length_take, Vector.length_toList]
  exact Nat.min_eq_left h

/-- Moving the rest to the front leaves the rest. -/
theorem pending_copyWithin {c : TcpWriter} (hlen : c.writeLen ≤ bufferSize) {n : Nat}
    (hn : n < c.writeLen) :
    pending { writeBuffer := c.copyWithin n, writeLen := c.writeLen - n } = c.pending.drop n := by
  have hmoved : c.writeLen - n ≤ bufferSize := by omega
  apply List.ext_getElem
  · rw [length_pending hmoved, List.length_drop, length_pending hlen]
  · intro i h h'
    rw [length_pending hmoved] at h
    have hin : n + i < c.writeLen ∧ n + i < bufferSize := by
      change i < c.writeLen - n at h
      omega
    simp only [pending, copyWithin, List.getElem_take, List.getElem_drop, Vector.getElem_toList,
      Vector.getElem_ofFn, dif_pos hin, Nat.add_comm]

/-- Storing a byte behind the others. -/
theorem pending_set {c : TcpWriter} (h : c.writeLen < bufferSize) (byte : U8) :
    pending { writeBuffer := c.writeBuffer.set c.writeLen byte h, writeLen := c.writeLen + 1 } =
      c.pending ++ [byte] := by
  have hlen : c.writeLen < c.writeBuffer.toList.length := by rwa [Vector.length_toList]
  rw [pending, pending, List.take_add_one, Vector.toList_set, List.take_set_of_le (Nat.le_refl _),
    List.getElem?_set_self hlen]
  rfl

/-- What a flush has done when it ends: nothing is lost, and `Ok` means that all is sent. -/
structure Flushed (c : TcpWriter) (s : TcpSocket) (res : Outcome SceError Unit) (c' : TcpWriter)
    (s' : TcpSocket) : Prop where
  bytes : s'.accepted ++ c'.pending = s.accepted ++ c.pending
  len : c'.writeLen ≤ c.writeLen
  answer : s'.answer = s.answer
  noPanic : res ≠ .panic
  sent : res = .ok () → c'.writeLen = 0

/-- One turn of the loop: it fails, or goes on with fewer bytes, and loses nothing. -/
theorem flushWriteBuffer_turn {c : TcpWriter} {s : TcpSocket} (hpos : c.writeLen ≠ 0)
    (hlen : c.writeLen ≤ bufferSize) (hsends : PartialSends s.answer) :
    (∃ err s', Flushed c s (.err err) c s' ∧
      ∀ fuel, flushWriteBuffer (fuel + 1) c s = some (.err err, c, s')) ∨
    ∃ c' s', c'.writeLen < c.writeLen ∧ s'.answer = s.answer ∧
      s'.accepted ++ c'.pending = s.accepted ++ c.pending ∧
      ∀ fuel, flushWriteBuffer (fuel + 1) c s = flushWriteBuffer fuel c' s' := by
  have hturn : ∀ fuel, flushWriteBuffer (fuel + 1) c s =
      match s.send c.pending with
      | (.error err, s) => some (.err err, c, s)
      | (.ok n, s) =>
        if n < c.writeLen then
          flushWriteBuffer fuel { writeBuffer := c.copyWithin n, writeLen := c.writeLen - n } s
        else flushWriteBuffer fuel { c with writeLen := 0 } s := by
    intro fuel
    rw [flushWriteBuffer, if_neg hpos, if_neg (Nat.not_lt.mpr hlen)]
  cases hanswer : s.answer s.sends c.pending with
  | error err =>
    have hsend : s.send c.pending = (.error err, { s with sends := s.sends + 1 }) := by
      rw [TcpSocket.send, hanswer]
    refine .inl ⟨err, { s with sends := s.sends + 1 }, ⟨rfl, Nat.le_refl _, rfl, nofun, nofun⟩,
      fun fuel => ?_⟩
    rw [hturn, hsend]
  | ok n =>
    obtain ⟨hone, hoffered⟩ := hsends _ _ _ hanswer
    rw [length_pending hlen] at hoffered
    have hsend : s.send c.pending = (.ok n,
        { s with sends := s.sends + 1, accepted := s.accepted ++ c.pending.take n }) := by
      rw [TcpSocket.send, hanswer]
    have hkept : s.accepted ++ c.pending.take n ++ c.pending.drop n = s.accepted ++ c.pending := by
      rw [List.append_assoc, List.take_append_drop]
    by_cases hpart : n < c.writeLen
    · refine .inr ⟨{ writeBuffer := c.copyWithin n, writeLen := c.writeLen - n },
        { s with sends := s.sends + 1, accepted := s.accepted ++ c.pending.take n },
        Nat.sub_lt (Nat.pos_of_ne_zero hpos) hone, rfl, ?_, fun fuel => ?_⟩
      · rw [pending_copyWithin hlen hpart, hkept]
      · rw [hturn, hsend]
        exact if_pos hpart
    · refine .inr ⟨{ c with writeLen := 0 },
        { s with sends := s.sends + 1, accepted := s.accepted ++ c.pending.take n },
        Nat.pos_of_ne_zero hpos, rfl, ?_, fun fuel => ?_⟩
      · -- all of it was accepted
        have hrest : c.pending.drop n = [] := by
          rw [List.drop_eq_nil_iff, length_pending hlen]
          exact Nat.le_of_not_lt hpart
        have hempty : pending { c with writeLen := 0 } = [] := List.take_zero
        rw [hempty, ← hrest, hkept]
      · rw [hturn, hsend]
        exact if_neg hpart

/-- **Every flush ends**, and loses nothing: with fuel for each byte in the buffer, the answer is
    the same whatever the fuel is. -/
theorem flushWriteBuffer_spec (c : TcpWriter) (s : TcpSocket) (hlen : c.writeLen ≤ bufferSize)
    (hsends : PartialSends s.answer) :
    ∃ res c' s', Flushed c s res c' s' ∧
      ∀ fuel, c.writeLen < fuel → flushWriteBuffer fuel c s = some (res, c', s') := by
  induction hn : c.writeLen using Nat.strong_induction_on generalizing c s with
  | _ n ih =>
    by_cases hzero : c.writeLen = 0
    · refine ⟨.ok (), c, s, ⟨rfl, Nat.le_refl _, rfl, nofun, fun _ => hzero⟩, ?_⟩
      intro fuel hfuel
      obtain ⟨fuel, rfl⟩ := Nat.exists_eq_add_one_of_ne_zero (Nat.ne_of_gt (Nat.zero_lt_of_lt hfuel))
      rw [flushWriteBuffer, if_pos hzero]
    · obtain ⟨err, s', hflushed, hends⟩ | ⟨c₁, s₁, hless, hanswer, hbytes, hgoes⟩ :=
        flushWriteBuffer_turn hzero hlen hsends
      · refine ⟨.err err, c, s', hflushed, ?_⟩
        intro fuel hfuel
        obtain ⟨fuel, rfl⟩ :=
          Nat.exists_eq_add_one_of_ne_zero (Nat.ne_of_gt (Nat.zero_lt_of_lt hfuel))
        exact hends fuel
      · obtain ⟨res, c', s', hflushed, hends⟩ := ih c₁.writeLen (hn ▸ hless) c₁ s₁
          (Nat.le_trans (Nat.le_of_lt hless) hlen) (hanswer ▸ hsends) rfl
        refine ⟨res, c', s', ⟨hflushed.bytes.trans hbytes, ?_, hflushed.answer.trans hanswer,
          hflushed.noPanic, hflushed.sent⟩, ?_⟩
        · exact Nat.le_trans hflushed.len (Nat.le_of_lt hless)
        · intro fuel hfuel
          obtain ⟨fuel, rfl⟩ :=
            Nat.exists_eq_add_one_of_ne_zero (Nat.ne_of_gt (Nat.zero_lt_of_lt hfuel))
          rw [hgoes]
          exact hends fuel (by omega)

end TcpWriter

/-! ## One call -/

open TcpWriter

/-- A call of the `Connection`. -/
inductive WriteCall where
  | write (byte : U8)
  | flush
  deriving DecidableEq

/-- The bytes a call hands over. -/
def WriteCall.bytes : WriteCall → List U8
  | .write byte => [byte]
  | .flush => []

def WriteCall.run (fuel : Nat) (c : TcpWriter) (s : TcpSocket) :
    WriteCall → Option (Outcome SceError Unit × TcpWriter × TcpSocket)
  | .write byte => c.write fuel s byte
  | .flush => c.flush fuel s

/-- What a call has done when it ends: its byte is in the buffer or sent, also when it fails; after
    `Ok` there is room for another one. -/
structure CallDone (call : WriteCall) (c : TcpWriter) (s : TcpSocket) (res : Outcome SceError Unit)
    (c' : TcpWriter) (s' : TcpSocket) : Prop where
  bytes : s'.accepted ++ c'.pending = s.accepted ++ c.pending ++ call.bytes
  len : c'.writeLen ≤ bufferSize
  answer : s'.answer = s.answer
  noPanic : res ≠ .panic
  room : res = .ok () → c'.writeLen < bufferSize
  sent : call = .flush → res = .ok () → c'.writeLen = 0

/-- **A call on a buffer with room** ends, and does what it should. -/
theorem writeCall_spec (call : WriteCall) {c : TcpWriter} {s : TcpSocket}
    (hroom : c.writeLen < bufferSize) (hsends : PartialSends s.answer) :
    ∃ res c' s', CallDone call c s res c' s' ∧
      ∀ fuel, bufferSize < fuel → call.run fuel c s = some (res, c', s') := by
  cases call with
  | flush =>
    obtain ⟨res, c', s', hflushed, hends⟩ :=
      flushWriteBuffer_spec c s (Nat.le_of_lt hroom) hsends
    refine ⟨res, c', s', ⟨?_, ?_, hflushed.answer, hflushed.noPanic, ?_, fun _ => hflushed.sent⟩,
      fun fuel hfuel => hends fuel (Nat.lt_trans hroom hfuel)⟩
    · rw [hflushed.bytes]
      exact (List.append_nil _).symm
    · exact Nat.le_trans hflushed.len (Nat.le_of_lt hroom)
    · exact fun _ => Nat.lt_of_le_of_lt hflushed.len hroom
  | write byte =>
    let c₁ : TcpWriter :=
      { writeBuffer := c.writeBuffer.set c.writeLen byte hroom, writeLen := c.writeLen + 1 }
    have hstored : s.accepted ++ c₁.pending = s.accepted ++ c.pending ++ [byte] := by
      rw [pending_set hroom, List.append_assoc]
    have hwrite : ∀ fuel, c.write fuel s byte =
        if c₁.writeLen = bufferSize then flushWriteBuffer fuel c₁ s else some (.ok (), c₁, s) := by
      intro fuel
      rw [TcpWriter.write, if_neg (Nat.ne_of_lt hroom), store, dif_pos hroom]
    by_cases hfull : c₁.writeLen = bufferSize
    · obtain ⟨res, c', s', hflushed, hends⟩ :=
        flushWriteBuffer_spec c₁ s (Nat.le_of_eq hfull) hsends
      refine ⟨res, c', s', ⟨hflushed.bytes.trans hstored, ?_, hflushed.answer, hflushed.noPanic,
        ?_, nofun⟩, ?_⟩
      · exact Nat.le_trans hflushed.len (Nat.le_of_eq hfull)
      · intro hok
        rw [hflushed.sent hok]
        decide
      · intro fuel hfuel
        rw [WriteCall.run, hwrite, if_pos hfull]
        exact hends fuel (hfull ▸ hfuel)
    · have hless : c₁.writeLen < bufferSize := Nat.lt_of_le_of_ne hroom hfull
      refine ⟨.ok (), c₁, s, ⟨hstored, Nat.le_of_lt hless, rfl, nofun, fun _ => hless, nofun⟩, ?_⟩
      intro fuel _
      rw [WriteCall.run, hwrite, if_neg hfull]

/-! ## Runs -/

/-- A connection, what was written to it, and how the last call ended. -/
structure WriteRun where
  conn : TcpWriter
  socket : TcpSocket
  written : List U8
  result : Outcome SceError Unit

/-- A new connection over a socket with these answers. -/
def WriteRun.start (answer : Nat → List U8 → Except SceError Nat) : WriteRun where
  conn := .new
  socket := { answer := answer, sends := 0, accepted := [] }
  written := []
  result := .ok ()

/-- The next call; after the first that fails there is none. -/
def writeStep (fuel : Nat) (x : WriteRun) (call : WriteCall) : Option WriteRun :=
  match x.result with
  | .ok () =>
    (call.run fuel x.conn x.socket).map fun (result, conn, socket) =>
      { conn := conn, socket := socket, written := x.written ++ call.bytes, result := result }
  | _ => none

/-- The buffer and the socket hold what was written. -/
structure WriteInv (x : WriteRun) : Prop where
  bytes : x.socket.accepted ++ x.conn.pending = x.written
  len : x.conn.writeLen ≤ bufferSize
  sends : PartialSends x.socket.answer
  noPanic : x.result ≠ .panic
  room : x.result = .ok () → x.conn.writeLen < bufferSize

theorem writeInv_start {answer : Nat → List U8 → Except SceError Nat} (h : PartialSends answer) :
    WriteInv (.start answer) :=
  ⟨rfl, Nat.zero_le _, h, nofun, fun _ => Nat.zero_lt_succ 63⟩

/-- A call after the invariant and an `Ok`: it ends, whatever the fuel, in a state it has done its
    work in. -/
theorem writeStep_spec {x : WriteRun} (h : WriteInv x) (hok : x.result = .ok ()) (call : WriteCall) :
    ∃ y, WriteInv y ∧ (call = .flush → y.result = .ok () → y.conn.writeLen = 0) ∧
      ∀ fuel, bufferSize < fuel → writeStep fuel x call = some y := by
  obtain ⟨res, c', s', hdone, hends⟩ := writeCall_spec call (h.room hok) h.sends
  refine ⟨⟨c', s', x.written ++ call.bytes, res⟩, ⟨?_, hdone.len, ?_, hdone.noPanic, hdone.room⟩,
    hdone.sent, ?_⟩
  · rw [← h.bytes]
    exact hdone.bytes
  · exact hdone.answer ▸ h.sends
  · intro fuel hfuel
    rw [writeStep, hok]
    simp only [hends fuel hfuel, Option.map_some]

theorem writeInv_step {fuel : Nat} (hfuel : bufferSize < fuel) {x y : WriteRun} {call : WriteCall}
    (h : WriteInv x) (hstep : writeStep fuel x call = some y) :
    WriteInv y ∧ (call = .flush → y.result = .ok () → y.conn.writeLen = 0) := by
  have hok : x.result = .ok () := by
    unfold writeStep at hstep
    split at hstep
    · assumption
    · exact nomatch hstep
  obtain ⟨y', hinv, hsent, hends⟩ := writeStep_spec h hok call
  obtain rfl : y' = y := Option.some.inj ((hends fuel hfuel).symm.trans hstep)
  exact ⟨hinv, hsent⟩

/-- What the worker may rely on. -/
structure WritesFaithful (fuel : Nat) (x : WriteRun) : Prop where
  /-- The bytes written are those the socket accepted and those in the buffer, in order. -/
  inOrder : x.socket.accepted ++ x.conn.pending = x.written
  inBounds : x.conn.writeLen ≤ bufferSize
  noPanic : x.result ≠ .panic
  /-- After a flush that goes through everything is accepted. -/
  flushed : ∀ y, writeStep fuel x .flush = some y → y.result = .ok () →
    y.socket.accepted = y.written
  /-- Every call ends, and fuel has nothing to do with how. -/
  ends : x.result = .ok () → ∀ call, ∃ y, ∀ fuel', bufferSize < fuel' →
    writeStep fuel' x call = some y

theorem WriteInv.writesFaithful {fuel : Nat} (hfuel : bufferSize < fuel) {x : WriteRun}
    (h : WriteInv x) : WritesFaithful fuel x := by
  refine ⟨h.bytes, h.len, h.noPanic, ?_, ?_⟩
  · intro y hstep hok
    obtain ⟨hinv, hsent⟩ := writeInv_step hfuel h hstep
    have hempty : y.conn.pending = [] := by
      rw [TcpWriter.pending, hsent rfl hok]
      exact List.take_zero
    rw [← hinv.bytes, hempty, List.append_nil]
  · intro hok call
    obtain ⟨y, _, _, hends⟩ := writeStep_spec h hok call
    exact ⟨y, hends⟩

/-- **The transmit path is a byte stream**, whatever part of it the socket accepts at a time, up to
    and with the first call that fails. -/
theorem writes_faithful (answer : Nat → List U8 → Except SceError Nat) (hsends : PartialSends answer)
    (fuel : Nat) (hfuel : bufferSize < fuel) (calls : List WriteCall) (x : WriteRun)
    (h : LTS.exec (writeStep fuel) (.start answer) calls = some x) : WritesFaithful fuel x := by
  have halong : LTS.Along (writeStep fuel) (fun _ _ => True) (.start answer) calls :=
    LTS.Along.of_forall (fun _ _ => trivial) calls
  have hinv : WriteInv x :=
    LTS.exec_invariant (fun _ _ _ hinv _ hstep => (writeInv_step hfuel hinv hstep).1) calls
      (writeInv_start hsends) halong h
  exact hinv.writesFaithful hfuel

/-- A socket that accepts a byte at a time, and fails at the third send. -/
def bytewise (i : Nat) (buf : List U8) : Except SceError Nat :=
  if i = 2 ∨ buf.length = 0 then .error ⟨0x80410107#32, "ksceNetSendto"⟩ else .ok 1

theorem bytewise_partialSends : PartialSends bytewise := by
  intro i buf n h
  unfold bytewise at h
  split at h
  · exact nomatch h
  · rename_i hsend
    obtain rfl := Except.ok.inj h
    exact ⟨Nat.le_refl 1, Nat.pos_of_ne_zero fun hzero => hsend (.inr hzero)⟩

/-- Three bytes and a flush that fails behind the second. -/
theorem writes_faithful_bytewise :
    ∃ x, LTS.exec (writeStep 65) (.start bytewise)
        [.write 1#8, .write 2#8, .write 3#8, .flush] = some x ∧
      x.socket.accepted = [1#8, 2#8] ∧ x.conn.pending = [3#8] ∧ WritesFaithful 65 x := by
  have hrun : ∃ x, LTS.exec (writeStep 65) (.start bytewise)
      [.write 1#8, .write 2#8, .write 3#8, .flush] = some x ∧
      x.socket.accepted = [1#8, 2#8] ∧ x.conn.pending = [3#8] := ⟨_, rfl, rfl, rfl⟩
  obtain ⟨x, hx, haccepted, hpending⟩ := hrun
  exact ⟨x, hx, haccepted, hpending,
    writes_faithful bytewise bytewise_partialSends 65 (by decide) _ x hx⟩

end VitaGdb
