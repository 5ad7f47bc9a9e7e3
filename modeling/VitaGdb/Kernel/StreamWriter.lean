/-
  `kernel/utils.rs`: `StreamWriter`, which writes one window of a text that is generated in pieces.

  The first `skip` bytes are dropped, the next ones fill the buffer, and the rest is an error that
  every caller ignores.  `Shows` says what a writer stands for: the window of all that was written
  to it, with the rest of the buffer as it was.  One byte keeps it (`Shows.putByte`), and so do a
  piece and all pieces; a piece that ends in an error finds the buffer full, and is none the worse
  for it.

  So the windows at the running offset tile the text (`streamWriter_windows`), and what is taken out
  as a C string is the whole text or nothing (`intoCstr_iff`).
-/
import VitaGdb.Kernel.Basic
import VitaGdb.Lib.Windows

namespace VitaGdb

open Windows

/-- `StreamWriter`. -/
structure StreamWriter where
  buf : List U8
  skip : Nat
  written : Nat
  fits : written ≤ buf.length

/-- `CStrError`. -/
inductive CStrError where
  | bufferTooSmall
  | invalidNul
  deriving DecidableEq, Repr

namespace StreamWriter

/-- `StreamWriter::new`. -/
def new (buf : List U8) (skip : Nat) : StreamWriter :=
  { buf := buf, skip := skip, written := 0, fits := Nat.zero_le _ }

/-- One round of the loop of `write_str`; `none` is its `Err`. -/
def putByte (w : StreamWriter) (byte : U8) : Option StreamWriter :=
  if 0 < w.skip then some { w with skip := w.skip - 1 }
  else if h : w.written < w.buf.length then
    some
      { buf := w.buf.set w.written byte
        skip := w.skip
        written := w.written + 1
        fits := by rw [List.length_set]; exact h }
  else none

/-- `write_str`; `false` is `Err`. -/
def writeStr (w : StreamWriter) : List U8 → Bool × StreamWriter
  | [] => (true, w)
  | byte :: s =>
    match w.putByte byte with
    | some w => w.writeStr s
    | none => (false, w)

/-- Some pieces, whose results are ignored. -/
def writeAll (w : StreamWriter) (pieces : List (List U8)) : StreamWriter :=
  pieces.foldl (fun w s => (w.writeStr s).2) w

/-- `write!` of some pieces: it ends with the first error. -/
def writeFmt (w : StreamWriter) : List (List U8) → Bool × StreamWriter
  | [] => (true, w)
  | s :: pieces =>
    match w.writeStr s with
    | (true, w) => w.writeFmt pieces
    | (false, w) => (false, w)

/-- `CStr::from_bytes_with_nul`: the only zero is the last byte. -/
def fromBytesWithNul (bytes : List U8) : Option (List U8) :=
  if bytes.getLast? = some 0#8 ∧ bytes.dropLast.all (· ≠ 0#8) then some bytes.dropLast else none

/-- `into_cstr`: the bytes before the terminator. -/
def intoCstr (w : StreamWriter) : Except CStrError (List U8) :=
  if w.written < w.buf.length then
    match fromBytesWithNul ((w.buf.set w.written 0#8).take (w.written + 1)) with
    | some c => .ok c
    | none => .error .invalidNul
  else .error .bufferTooSmall

/-! ## What a writer shows -/

/-- The writer on this buffer shows the window of `doc` from `skip` on. -/
structure Shows (w : StreamWriter) (buf : List U8) (skip : Nat) (doc : List U8) : Prop where
  toSkip : w.skip = skip - doc.length
  cursor : w.written = min buf.length (doc.length - skip)
  bytes : w.buf = window doc skip buf.length ++ buf.drop w.written

variable {w w' : StreamWriter} {buf doc : List U8} {skip : Nat}

theorem shows_new (buf : List U8) (skip : Nat) : Shows (new buf skip) buf skip [] where
  toSkip := rfl
  cursor := by simp [new]
  bytes := by simp [new, window]

theorem Shows.length (h : Shows w buf skip doc) : w.buf.length = buf.length := by
  have hwritten := h.cursor
  rw [h.bytes, List.length_append, length_window, List.length_drop]
  omega

/-- What is in front of the cursor is the window. -/
theorem Shows.take_written (h : Shows w buf skip doc) :
    w.buf.take w.written = window doc skip buf.length := by
  have hwritten : w.written = (window doc skip buf.length).length := by rw [length_window, h.cursor]
  rw [h.bytes, hwritten, List.take_left']
  rfl

/-- A writer whose buffer is full shows more of the text as well. -/
theorem Shows.full (h : Shows w buf skip doc) (hskip : w.skip = 0) (hfull : w.buf.length ≤ w.written)
    (rest : List U8) : Shows w buf skip (doc ++ rest) := by
  have hlen := h.length
  have hwritten := h.cursor
  have hskipped := h.toSkip
  refine ⟨?_, ?_, ?_⟩
  · rw [List.length_append]
    omega
  · rw [List.length_append]
    omega
  · rw [window_append_full (by omega)]
    exact h.bytes

/-- **One byte.** -/
theorem Shows.putByte (h : Shows w buf skip doc) {byte : U8} (hput : w.putByte byte = some w') :
    Shows w' buf skip (doc ++ [byte]) := by
  have hlen := h.length
  have hwritten := h.cursor
  have hskipped := h.toSkip
  rw [StreamWriter.putByte] at hput
  split at hput
  · obtain rfl := Option.some.inj hput
    refine ⟨?_, ?_, ?_⟩
    · simp only [List.length_append, List.length_singleton]
      omega
    · simp only [List.length_append, List.length_singleton]
      omega
    · -- the byte is skipped
      rw [window_append, show skip - doc.length = (skip - doc.length - 1) + 1 by omega]
      simp only [window, List.drop_succ_cons, List.drop_nil, List.take_nil, List.append_nil]
      exact h.bytes
  · split at hput
    · rename_i hskip hspace
      obtain rfl := Option.some.inj hput
      refine ⟨?_, ?_, ?_⟩
      · simp only [List.length_append, List.length_singleton]
        omega
      · simp only [List.length_append, List.length_singleton]
        omega
      · -- the byte comes behind the window
        have hcursor : (window doc skip buf.length).length = w.written := by
          rw [length_window, hwritten]
        have hbehind :
            window [byte] (skip - doc.length) (buf.length - (doc.length - skip)) = [byte] := by
          rw [show skip - doc.length = 0 by omega,
            show buf.length - (doc.length - skip) = (buf.length - (doc.length - skip) - 1) + 1 by omega]
          simp [window]
        show w.buf.set w.written byte = _ ++ buf.drop (w.written + 1)
        rw [window_append, hbehind, h.bytes, List.set_append_right _ _ (by omega), hcursor,
          Nat.sub_self, List.drop_eq_getElem_cons (by omega : w.written < buf.length),
          List.set_cons_zero, List.append_assoc]
        rfl
    · exact absurd hput (by simp)

/-- **A piece**, whether it ends in an error or not. -/
theorem Shows.writeStr (h : Shows w buf skip doc) (s : List U8) :
    Shows (w.writeStr s).2 buf skip (doc ++ s) := by
  induction s generalizing w doc with
  | nil => rwa [List.append_nil]
  | cons byte s ih =>
    rw [StreamWriter.writeStr]
    cases hput : w.putByte byte with
    | some w' =>
      have hstep := ih (h.putByte hput)
      rwa [List.append_assoc] at hstep
    | none =>
      rw [StreamWriter.putByte] at hput
      split at hput
      · exact absurd hput (by simp)
      · split at hput
        · exact absurd hput (by simp)
        · rename_i hskip hspace
          exact h.full (by omega) (by omega) (byte :: s)

/-- **All pieces.** -/
theorem Shows.writeAll (h : Shows w buf skip doc) (pieces : List (List U8)) :
    Shows (w.writeAll pieces) buf skip (doc ++ pieces.flatten) := by
  induction pieces generalizing w doc with
  | nil =>
    rw [List.flatten_nil, List.append_nil]
    exact h
  | cons s pieces ih =>
    have hrest := ih (h.writeStr s)
    rwa [List.append_assoc] at hrest

theorem shows_writeAll (buf : List U8) (skip : Nat) (pieces : List (List U8)) :
    Shows ((new buf skip).writeAll pieces) buf skip pieces.flatten := by
  have h := (shows_new buf skip).writeAll pieces
  rwa [List.nil_append] at h

/-- What has been written. -/
def shown (w : StreamWriter) : List U8 := w.buf.take w.written

theorem Shows.shown (h : Shows w buf skip doc) : w.shown = window doc skip buf.length :=
  h.take_written

/-- **Windowed writing tiles the text**: a writer shows its window of the pieces, and windows at the
    running offset, into any non-empty buffers, come to an end and are the whole text. -/
theorem streamWriter_windows (pieces : List (List U8)) (buffers : Nat → List U8)
    (hbuffers : ∀ i, 1 ≤ (buffers i).length) :
    (∀ buf skip, ((new buf skip).writeAll pieces).written =
        min buf.length (pieces.flatten.length - skip) ∧
      ((new buf skip).writeAll pieces).shown = (pieces.flatten.drop skip).take buf.length) ∧
    ∀ fuel, pieces.flatten.length < fuel → ∃ windows,
      readWindows (fun i offset => ((new (buffers i) offset).writeAll pieces).shown) fuel 0 0 =
        some windows ∧ windows.flatten = pieces.flatten := by
  have hshows : ∀ buf skip, ((new buf skip).writeAll pieces).shown =
      window pieces.flatten skip buf.length := fun buf skip => (shows_writeAll buf skip pieces).shown
  exact ⟨fun buf skip => ⟨(shows_writeAll buf skip pieces).cursor, hshows buf skip⟩,
    fun fuel hfuel => readWindows_tiles (fun i offset => hshows (buffers i) offset) hbuffers fuel 0 0
      hfuel⟩

/-- Three pieces, read two bytes at a time. -/
theorem streamWriter_windows_two : ∃ windows,
    readWindows (fun i offset => ((new ((fun _ => [0#8, 0#8]) i) offset).writeAll
      [[1#8], [], [2#8, 3#8]]).shown) 4 0 0 = some windows ∧ windows.flatten = [1#8, 2#8, 3#8] :=
  (streamWriter_windows [[1#8], [], [2#8, 3#8]] (fun _ => [0#8, 0#8]) (fun _ => by decide)).2 4
    (by decide)

/-! ## `write!` -/

/-- A piece that ends in an error has left the buffer full. -/
theorem writeStr_full (w : StreamWriter) (s : List U8) (h : (w.writeStr s).1 = false) :
    (w.writeStr s).2.skip = 0 ∧ (w.writeStr s).2.buf.length ≤ (w.writeStr s).2.written := by
  induction s generalizing w with
  | nil => exact absurd h (by simp [writeStr])
  | cons byte s ih =>
    rw [writeStr] at h ⊢
    cases hput : w.putByte byte with
    | some w' =>
      rw [hput] at h
      exact ih w' h
    | none =>
      rw [putByte] at hput
      split at hput
      · exact absurd hput (by simp)
      · split at hput
        · exact absurd hput (by simp)
        · rename_i hskip hspace
          dsimp only
          omega

/-- **`write!` stops early and shows the same**: after an error there is no room for the pieces it
    leaves out. -/
theorem Shows.writeFmt (h : Shows w buf skip doc) (pieces : List (List U8)) :
    Shows (w.writeFmt pieces).2 buf skip (doc ++ pieces.flatten) := by
  induction pieces generalizing w doc with
  | nil =>
    rw [List.flatten_nil, List.append_nil]
    exact h
  | cons s pieces ih =>
    have hpiece := h.writeStr s
    rw [StreamWriter.writeFmt]
    rcases hres : w.writeStr s with ⟨_ | _, w'⟩
    · have hfull := writeStr_full w s (by rw [hres])
      rw [hres] at hpiece hfull
      rw [List.flatten_cons, ← List.append_assoc]
      exact hpiece.full hfull.1 hfull.2 _
    · rw [hres] at hpiece
      have hrest := ih hpiece
      rwa [List.append_assoc] at hrest

/-! ## The C string -/

theorem fromBytesWithNul_concat (bytes : List U8) :
    fromBytesWithNul (bytes ++ [0#8]) = if 0#8 ∈ bytes then none else some bytes := by
  have hall : bytes.all (· ≠ 0#8) = true ↔ 0#8 ∉ bytes := by
    rw [List.all_eq_true]
    constructor
    · intro h hmem
      simpa using h _ hmem
    · intro h byte hmem
      rw [decide_eq_true_eq]
      rintro rfl
      exact h hmem
  rw [fromBytesWithNul, List.getLast?_concat, List.dropLast_concat]
  by_cases h : 0#8 ∈ bytes
  · rw [if_neg fun hno => hall.mp hno.2 h, if_pos h]
  · rw [if_pos ⟨rfl, hall.mpr h⟩, if_neg h]

/-- What `into_cstr` makes of a writer that skips nothing. -/
theorem Shows.intoCstr (h : Shows w buf 0 doc) : w.intoCstr =
    if doc.length < buf.length then
      if 0#8 ∈ doc then .error .invalidNul else .ok doc
    else .error .bufferTooSmall := by
  have hcursor := h.cursor
  have hlen := h.length
  rw [StreamWriter.intoCstr]
  by_cases hspace : doc.length < buf.length
  · have hwritten : w.written = doc.length := by omega
    have hterminated : (w.buf.set w.written 0#8).take (w.written + 1) = doc ++ [0#8] := by
      have hwindow : window doc 0 buf.length = doc := by
        rw [window, List.drop_zero, List.take_of_length_le (by omega)]
      rw [h.bytes, hwindow, hwritten, List.set_append_right _ _ (Nat.le_refl _), Nat.sub_self,
        List.drop_eq_getElem_cons hspace, List.set_cons_zero, List.take_append]
      simp
    rw [if_pos (by omega), hterminated, fromBytesWithNul_concat, if_pos hspace]
    by_cases hzero : 0#8 ∈ doc
    · rw [if_pos hzero, if_pos hzero]
    · rw [if_neg hzero, if_neg hzero]
  · rw [if_neg (by omega), if_neg hspace]

end StreamWriter

end VitaGdb
