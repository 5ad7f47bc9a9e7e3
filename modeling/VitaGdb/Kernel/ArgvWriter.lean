/-
  `kernel/utils.rs`: `ArgvWriter`, the launch arguments: names and values, each ended by a zero.

  The buffer of 32 bytes starts as zeros, and `append` moves its cursor one byte further than it
  writes: that byte is the terminator, as nothing is ever written behind the cursor (`Holds`).

  `add` makes two appends, and what the first has written stays where the second finds no room.
  `add_whole_iff` says that this is the only way an argument is written by halves.
-/
import VitaGdb.Kernel.Basic
import VitaGdb.Lib.Runs

namespace VitaGdb

/-- `ArgvWriter`. -/
structure ArgvWriter where
  buf : List U8
  offset : Nat
  size : buf.length = 32

namespace ArgvWriter

/-- `ArgvWriter::new`. -/
def new : ArgvWriter :=
  { buf := List.replicate 32 0#8, offset := 0, size := List.length_replicate }

/-- `append`: the data over the bytes at the cursor, and the cursor behind its terminator. -/
def append (w : ArgvWriter) (data : List U8) : Bool × ArgvWriter :=
  if h : w.offset + data.length ≥ w.buf.length then (false, w)
  else
    (true,
      { buf := w.buf.take w.offset ++ data ++ w.buf.drop (w.offset + data.length)
        offset := w.offset + (data.length + 1)
        size := by
          have hsize := w.size
          simp only [List.length_append, List.length_take, List.length_drop]
          omega })

/-- `add`. -/
def add (w : ArgvWriter) (name value : List U8) : Bool × ArgvWriter :=
  match w.append name with
  | (false, w) => (false, w)
  | (true, w) =>
    match w.append value with
    | (false, w) => (false, w)
    | (true, w) => (true, w)

/-- `to_slice`. -/
def toSlice (w : ArgvWriter) : Outcome Unit (List U8) :=
  if w.offset ≤ w.buf.length then .ok (w.buf.take w.offset) else .panic

/-! ## One argument -/

/-- The arguments are in front of the cursor, and zeros behind it. -/
structure Holds (w : ArgvWriter) (args : List U8) : Prop where
  cursor : w.offset = args.length
  bytes : w.buf = args ++ List.replicate (32 - args.length) 0#8

theorem holds_new : Holds new [] where
  cursor := rfl
  bytes := rfl

variable {w : ArgvWriter} {args : List U8}

theorem Holds.length_le (h : Holds w args) : args.length ≤ 32 := by
  have hsize := w.size
  rw [h.bytes, List.length_append] at hsize
  omega

/-- **`to_slice` does not panic**. -/
theorem Holds.toSlice (h : Holds w args) : w.toSlice = .ok args := by
  have hle : w.offset ≤ w.buf.length := by rw [h.cursor, w.size]; exact h.length_le
  rw [ArgvWriter.toSlice, if_pos hle, h.bytes, h.cursor, List.take_left']
  rfl

/-- **One append**: nothing, or the data and a zero. -/
theorem Holds.append (h : Holds w args) (data : List U8) :
    32 ≤ w.offset + data.length ∧ w.append data = (false, w) ∨
      w.offset + data.length < 32 ∧ ∃ w', w.append data = (true, w') ∧
        Holds w' (args ++ data ++ [0#8]) := by
  have hsize := w.size
  rw [ArgvWriter.append]
  by_cases hfull : w.offset + data.length ≥ w.buf.length
  · rw [dif_pos hfull]
    exact .inl ⟨by omega, rfl⟩
  · have hcursor := h.cursor
    rw [dif_neg hfull]
    refine .inr ⟨by omega, _, rfl, ⟨?_, ?_⟩⟩
    · simp only [List.length_append, List.length_singleton]
      omega
    · -- the terminator is the first of the zeros that are left
      have hzeros : 32 - args.length - data.length =
          32 - (args ++ data ++ [0#8]).length + 1 := by
        simp only [List.length_append, List.length_singleton]
        omega
      show w.buf.take w.offset ++ data ++ w.buf.drop (w.offset + data.length) = _
      rw [h.bytes, hcursor, List.take_left' rfl, ← List.drop_drop, List.drop_left' rfl,
        List.drop_replicate, hzeros, List.replicate_succ]
      simp only [List.append_assoc, List.singleton_append]

/-- The bytes of an argument. -/
def entry (name value : List U8) : List U8 := name ++ [0#8] ++ value ++ [0#8]

/-- The name finds room, and the value behind it does not. -/
def SplitsArg (w : ArgvWriter) (arg : List U8 × List U8) : Prop :=
  w.offset + arg.1.length < 32 ∧ 32 ≤ w.offset + arg.1.length + 1 + arg.2.length

instance SplitsArg.decidable (w : ArgvWriter) (arg : List U8 × List U8) :
    Decidable (SplitsArg w arg) :=
  inferInstanceAs (Decidable (w.offset + arg.1.length < 32 ∧
    32 ≤ w.offset + arg.1.length + 1 + arg.2.length))

/-- What a call of `add` can do: nothing, all of it, or the name alone. -/
inductive AddGoes (w : ArgvWriter) (args name value : List U8) : Bool × ArgvWriter → Prop where
  | full (hfull : 32 ≤ w.offset + name.length) : AddGoes w args name value (false, w)
  | split (w' : ArgvWriter) (hsplit : SplitsArg w (name, value))
      (hholds : Holds w' (args ++ name ++ [0#8])) : AddGoes w args name value (false, w')
  | whole (w' : ArgvWriter) (hroom : w.offset + name.length + 1 + value.length < 32)
      (hholds : Holds w' (args ++ entry name value)) : AddGoes w args name value (true, w')

theorem Holds.add (h : Holds w args) (name value : List U8) :
    AddGoes w args name value (w.add name value) := by
  rw [ArgvWriter.add]
  rcases h.append name with ⟨hfull, hname⟩ | ⟨hroom, w₁, hname, h₁⟩
  · rw [hname]
    exact .full hfull
  · have hcursor := h₁.cursor
    have hcursor' := h.cursor
    simp only [List.length_append, List.length_singleton] at hcursor
    rw [hname]
    dsimp only
    rcases h₁.append value with ⟨hfull, hvalue⟩ | ⟨hroom', w₂, hvalue, h₂⟩
    · rw [hvalue]
      exact .split w₁ ⟨hroom, show 32 ≤ w.offset + name.length + 1 + value.length by omega⟩ h₁
    · rw [hvalue]
      refine .whole w₂ (by omega) ?_
      simpa only [entry, List.append_assoc] using h₂

/-! ## All arguments -/

/-- A call of `add`. -/
def addStep (w : ArgvWriter) (arg : List U8 × List U8) : Option ArgvWriter :=
  some (w.add arg.1 arg.2).2

/-- The argument of a call that returns true. -/
def addLabel (w : ArgvWriter) (arg : List U8 × List U8) : Option (List U8) :=
  if (w.add arg.1 arg.2).1 then some (entry arg.1 arg.2) else none

/-- The slice is what the calls that returned true were given, and the others have left the writer
    as it was. -/
structure ArgsWhole (calls : List (List U8 × List U8)) (w : ArgvWriter) : Prop where
  slice : w.toSlice = .ok (LTS.trace addStep addLabel new calls).flatten
  unchanged : LTS.Along addStep
    (fun w arg => (w.add arg.1 arg.2).1 = false → (w.add arg.1 arg.2).2 = w) new calls

/-- A call leaves the writer as it was, or returns true, unless it writes a name alone. -/
theorem Holds.unchanged_iff (h : Holds w args) (arg : List U8 × List U8) :
    ((w.add arg.1 arg.2).1 = false → (w.add arg.1 arg.2).2 = w) ↔ ¬ SplitsArg w arg := by
  obtain ⟨name, value⟩ := arg
  have hgoes := h.add name value
  dsimp only
  generalize w.add name value = answer at hgoes
  cases hgoes with
  | full hfull =>
    refine ⟨fun _ hsplit => ?_, fun _ _ => rfl⟩
    have hroom : w.offset + name.length < 32 := hsplit.1
    omega
  | split w' hsplit hholds =>
    refine ⟨fun hsame => ?_, fun hnot => absurd hsplit hnot⟩
    have hmoved := hholds.cursor
    have hsame : w' = w := hsame rfl
    rw [hsame, h.cursor] at hmoved
    simp only [List.length_append, List.length_singleton] at hmoved
    omega
  | whole w' hroom hholds =>
    refine ⟨fun _ hsplit => ?_, fun _ hfalse => absurd hfalse (by simp)⟩
    have hfull : 32 ≤ w.offset + name.length + 1 + value.length := hsplit.2
    omega

/-- After any call the writer holds something. -/
theorem Holds.step {w' : ArgvWriter} {arg : List U8 × List U8} (h : Holds w args)
    (hstep : addStep w arg = some w') : ∃ args', Holds w' args' := by
  obtain ⟨name, value⟩ := arg
  obtain rfl := Option.some.inj hstep
  have hgoes := h.add name value
  dsimp only
  generalize w.add name value = answer at hgoes
  cases hgoes with
  | full hfull => exact ⟨args, h⟩
  | split w' hsplit hholds => exact ⟨_, hholds⟩
  | whole w' hroom hholds => exact ⟨_, hholds⟩

/-- **Calls that never write a name alone** add what they were given, where they return true. -/
theorem Holds.run (h : Holds w args) (calls : List (List U8 × List U8))
    (hwhole : LTS.Along addStep (fun w arg => ¬ SplitsArg w arg) w calls) {w' : ArgvWriter}
    (hrun : LTS.exec addStep w calls = some w') :
    Holds w' (args ++ (LTS.trace addStep addLabel w calls).flatten) := by
  induction calls generalizing w args with
  | nil =>
    obtain rfl := Option.some.inj hrun
    rw [LTS.trace, List.flatten_nil, List.append_nil]
    exact h
  | cons arg calls ih =>
    obtain ⟨name, value⟩ := arg
    have hrest := hwhole.2 _ rfl
    have hgoes := h.add name value
    simp only [LTS.exec_cons, addStep, Option.bind_some] at hrun
    simp only [LTS.trace, addStep, addLabel]
    dsimp only at hrest
    generalize w.add name value = answer at hgoes hrun hrest
    cases hgoes with
    | full hfull => exact ih h hrest hrun
    | split w₁ hsplit hholds => exact absurd hsplit hwhole.1
    | whole w₁ hroom hholds =>
      have hadded := ih hholds hrest hrun
      rwa [List.append_assoc] at hadded

/-- **Arguments are written whole or not at all** exactly where no call finds room for the name and
    not for the value behind it. -/
theorem add_whole_iff (calls : List (List U8 × List U8)) (w : ArgvWriter)
    (hrun : LTS.exec addStep new calls = some w) :
    ArgsWhole calls w ↔ LTS.Along addStep (fun w arg => ¬ SplitsArg w arg) new calls := by
  have hiff : ∀ (w : ArgvWriter) arg, (∃ args, Holds w args) →
      (((w.add arg.1 arg.2).1 = false → (w.add arg.1 arg.2).2 = w) ↔ ¬ SplitsArg w arg) :=
    fun w arg ⟨_, h⟩ => h.unchanged_iff arg
  have hkeeps : ∀ (w : ArgvWriter) arg w', (∃ args, Holds w args) →
      ((w.add arg.1 arg.2).1 = false → (w.add arg.1 arg.2).2 = w) → addStep w arg = some w' →
      ∃ args, Holds w' args := fun w arg w' ⟨_, h⟩ _ hstep => h.step hstep
  have halong := LTS.Along.iff_of_invariant hiff hkeeps calls ⟨[], holds_new⟩
  refine ⟨fun h => halong.mp h.unchanged, fun h => ⟨?_, halong.mpr h⟩⟩
  exact (holds_new.run calls h hrun).toSlice

/-- The launch arguments, and another that finds no room even for its name. -/
def someArgs : List (List U8 × List U8) :=
  [(List.replicate 8 0x2d#8, List.replicate 9 0x41#8), (List.replicate 13 0x2d#8, [])]

theorem add_whole_someArgs : ∃ w, LTS.exec addStep new someArgs = some w ∧ ArgsWhole someArgs w := by
  refine ⟨_, rfl, (add_whole_iff someArgs _ rfl).mpr ?_⟩
  decide +kernel

/-- **A name without its value**: ten bytes, and thirty that do not fit behind them. -/
theorem add_halves : ¬ ∀ (calls : List (List U8 × List U8)) (w : ArgvWriter),
    (∀ call ∈ calls, 0#8 ∉ call.1 ∧ 0#8 ∉ call.2) → LTS.exec addStep new calls = some w →
    ArgsWhole calls w := by
  intro hclaim
  have hwhole := hclaim [(List.replicate 10 0x2d#8, List.replicate 30 0x41#8)] _ (by decide) rfl
  have hunchanged := hwhole.unchanged.1 rfl
  exact absurd (congrArg ArgvWriter.offset hunchanged) (by decide)

end ArgvWriter

end VitaGdb
