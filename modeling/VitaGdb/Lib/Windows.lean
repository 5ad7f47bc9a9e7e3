/-
  A document that is read in windows.

  `window doc skip len` is what lies from `skip` on, at most `len` long.  A reader that is asked at
  the running offset, for any non-empty lengths, until it answers an empty window, has then been
  given the whole document, and comes to that point (`readWindows_tiles`).
-/
import Mathlib.Tactic.Common

namespace Windows

variable {α : Type}

/-- The part of a document from `skip` on, at most `len` long. -/
def window (doc : List α) (skip len : Nat) : List α := (doc.drop skip).take len

@[simp] theorem length_window (doc : List α) (skip len : Nat) :
    (window doc skip len).length = min len (doc.length - skip) := by
  rw [window, List.length_take, List.length_drop]

/-- A window of a document that goes on. -/
theorem window_append (doc rest : List α) (skip len : Nat) :
    window (doc ++ rest) skip len =
      window doc skip len ++ window rest (skip - doc.length) (len - (doc.length - skip)) := by
  rw [window, window, window, List.drop_append, List.take_append, List.length_drop]

/-- A full window stays as it is. -/
theorem window_append_full {doc : List α} {skip len : Nat} (hfull : len ≤ doc.length - skip)
    (rest : List α) : window (doc ++ rest) skip len = window doc skip len := by
  rw [window_append, Nat.sub_eq_zero_of_le hfull, window, window, List.take_zero, List.append_nil]

/-- A window is empty at the end of the document, or where nothing is asked for. -/
theorem window_eq_nil_iff {doc : List α} {skip len : Nat} :
    window doc skip len = [] ↔ len = 0 ∨ doc.length ≤ skip := by
  rw [window, List.take_eq_nil_iff, List.drop_eq_nil_iff]

/-- Windows of the same start are equal where they are of the same length. -/
theorem window_eq_iff {doc : List α} {skip len len' : Nat} :
    window doc skip len = window doc skip len' ↔
      min len (doc.length - skip) = min len' (doc.length - skip) := by
  rw [window, window, List.take_eq_take_iff, List.length_drop]

/-- A window does not see what comes behind the document where it ends in it, or starts behind it
    all. -/
theorem window_append_eq_iff {doc rest : List α} {skip len : Nat} :
    window (doc ++ rest) skip len = window doc skip len ↔
      len ≤ doc.length - skip ∨ rest.length ≤ skip - doc.length := by
  rw [window_append, List.append_right_eq_self, window_eq_nil_iff, Nat.sub_eq_zero_iff_le]

/-- A window, and the document behind it. -/
theorem window_append_drop (doc : List α) (skip len : Nat) :
    window doc skip len ++ doc.drop (skip + (window doc skip len).length) = doc.drop skip := by
  have hrest : doc.drop (skip + (window doc skip len).length) = (doc.drop skip).drop len := by
    rw [List.drop_drop, length_window]
    by_cases hle : len ≤ doc.length - skip
    · rw [Nat.min_eq_left hle]
    · rw [Nat.min_eq_right (by omega), List.drop_eq_nil_of_le (by omega),
        List.drop_eq_nil_of_le (by omega)]
  rw [hrest, window, List.take_append_drop]

/-! ## Reading to the end -/

/-- Ask at the running offset until a window is empty; `read i` answers the `i`-th time.  `none` is
    a loop that has not ended. -/
def readWindows (read : Nat → Nat → List α) : Nat → Nat → Nat → Option (List (List α))
  | 0, _, _ => none
  | fuel + 1, i, offset =>
    match read i offset with
    | [] => some []
    | c :: cs =>
      (readWindows read fuel (i + 1) (offset + (c :: cs).length)).map ((c :: cs) :: ·)

/-- **Windows tile the document**: whatever the lengths, the reading ends, and has got everything
    from the offset on. -/
theorem readWindows_tiles {doc : List α} {read : Nat → Nat → List α} {len : Nat → Nat}
    (hread : ∀ i offset, read i offset = window doc offset (len i)) (hlen : ∀ i, 0 < len i) :
    ∀ fuel i offset, doc.length - offset < fuel →
      ∃ windows, readWindows read fuel i offset = some windows ∧
        windows.flatten = doc.drop offset := by
  intro fuel
  induction fuel with
  | zero => exact fun _ _ h => absurd h (Nat.not_lt_zero _)
  | succ fuel ih =>
    intro i offset hfuel
    rw [readWindows, hread]
    have hsplit := window_append_drop doc offset (len i)
    have hlength := length_window doc offset (len i)
    cases hwindow : window doc offset (len i) with
    | nil =>
      refine ⟨[], rfl, ?_⟩
      have hend := (window_eq_nil_iff.mp hwindow).resolve_left (Nat.pos_iff_ne_zero.mp (hlen i))
      rw [List.drop_eq_nil_of_le hend, List.flatten_nil]
    | cons c cs =>
      -- at least one element has been read
      rw [hwindow] at hsplit hlength
      rw [List.length_cons] at hlength
      obtain ⟨windows, hrest, hflat⟩ := ih (i + 1) (offset + (c :: cs).length)
        (by rw [List.length_cons]; omega)
      refine ⟨(c :: cs) :: windows, ?_, ?_⟩
      · dsimp only
        rw [hrest, Option.map_some]
      · rw [List.flatten_cons, hflat, hsplit]

end Windows
