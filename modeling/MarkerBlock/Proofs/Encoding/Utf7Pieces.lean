/-
MarkerBlock.Proofs.Encoding.Utf7Pieces — where a UTF-7 text can be cut.

The writer carries bits and an open shift sequence from one character to the next, so a text is
not written character by character.  But what has been written has no part in what is written
after it (`finish_onto`), and a direct character closes an open shift sequence as the end of the
text does (`push_isDirect`).  So the writer starts afresh behind every direct character, and a
text is written piece by piece where a piece begins with one (`encode_append`).
-/
import Mathlib
import MarkerBlock.Proofs.Encoding.Utf7
import MarkerBlock.Proofs.Text

namespace MarkerBlock.Encoding.Utf7

/-! ## §1 What has been written -/

/-- A writer with `earlier` octets, newest first, written before its own. -/
def Writer.onto (w : Writer) (earlier : List UInt8) : Writer :=
  { w with written := w.written ++ earlier }

theorem drainDigits_onto (earlier written : List UInt8) (b : BitBuffer) :
    drainDigits (written ++ earlier) b =
      ((drainDigits written b).1 ++ earlier, (drainDigits written b).2) := by
  fun_induction drainDigits written b with
  | case1 written b hsize ih => rw [drainDigits, if_pos hsize, ← List.cons_append, ih]
  | case2 written b hsize => rw [drainDigits, if_neg hsize]

theorem writeUnits_onto (earlier : List UInt8) (us : List UInt16) (written : List UInt8)
    (b : BitBuffer) :
    us.foldl writeUnit (written ++ earlier, b) =
      ((us.foldl writeUnit (written, b)).1 ++ earlier, (us.foldl writeUnit (written, b)).2) := by
  induction us generalizing written b with
  | nil => rfl
  | cons u us ih =>
    have hunit : writeUnit (written ++ earlier, b) u =
        ((writeUnit (written, b) u).1 ++ earlier, (writeUnit (written, b) u).2) :=
      drainDigits_onto earlier written (b.push 16 u.toUInt32)
    rw [List.foldl_cons, hunit, ih, List.foldl_cons]

theorem closeShift_onto (earlier written : List UInt8) (b : BitBuffer) :
    closeShift (written ++ earlier) b = closeShift written b ++ earlier := by
  rw [closeShift, closeShift]
  split <;> rfl

theorem writeShifted_onto (earlier written : List UInt8) (b : BitBuffer) (c : Char) :
    writeShifted (written ++ earlier) b c = (writeShifted written b c).onto earlier := by
  rw [writeShifted_eq, writeShifted_eq, writeUnits_onto]
  rfl

theorem push_onto (w : Writer) (earlier : List UInt8) (c : Char) :
    (w.onto earlier).push c = (w.push c).onto earlier := by
  obtain ⟨written, shift⟩ := w
  rw [Writer.onto, Writer.push, Writer.push]
  cases shift with
  | none =>
    by_cases hc : isDirect c = true
    · simp [hc, Writer.onto]
    · by_cases hplus : c = '+'
      · simp only [if_neg hc, if_pos hplus]
        rfl
      · simp only [if_neg hc, if_neg hplus, ← List.cons_append, writeShifted_onto]
  | some b =>
    by_cases hc : isDirect c = true
    · simp [hc, closeShift_onto, Writer.onto]
    · simp only [if_neg hc, writeShifted_onto]

theorem foldl_push_onto (text : List Char) (w : Writer) (earlier : List UInt8) :
    text.foldl Writer.push (w.onto earlier) = (text.foldl Writer.push w).onto earlier := by
  induction text generalizing w with
  | nil => rfl
  | cons c text ih => rw [List.foldl_cons, push_onto, ih, List.foldl_cons]

/-- What has been written stands in front of what is written after it, and is no part of it. -/
theorem finish_onto (w : Writer) (earlier : List UInt8) :
    (w.onto earlier).finish = earlier.reverse ++ w.finish := by
  obtain ⟨written, shift⟩ := w
  rw [Writer.onto, Writer.finish, Writer.finish]
  cases shift with
  | none => simp
  | some b => simp [closeShift_onto]

/-! ## §2 Direct characters -/

/-- A direct character closes an open shift sequence as the end of the text does, and stands behind
it. -/
theorem push_isDirect (w : Writer) {d : Char} (hd : isDirect d = true) :
    w.push d = Writer.onto {} (UInt8.ofNat d.toNat :: w.finish.reverse) := by
  obtain ⟨written, shift⟩ := w
  rw [Writer.push, Writer.finish]
  cases shift with
  | none => simp [hd, Writer.onto]
  | some b => simp [hd, Writer.onto]

/-- Behind a direct character the writer starts afresh. -/
theorem encode_append_cons {d : Char} (hd : isDirect d = true) (x y : List Char) :
    encode (x ++ d :: y) = encode x ++ UInt8.ofNat d.toNat :: encode y := by
  rw [encode, List.foldl_append, List.foldl_cons, push_isDirect _ hd, foldl_push_onto, finish_onto]
  simp [encode]

/-- A text that is empty, or begins with a direct character. -/
def StartsDirect (text : List Char) : Prop := ∀ c ∈ text.head?, isDirect c = true

/-- A text is written piece by piece where a piece begins with a direct character. -/
theorem encode_append (x : List Char) {y : List Char} (hy : StartsDirect y) :
    encode (x ++ y) = encode x ++ encode y := by
  cases y with
  | nil => simp [encode, Writer.finish]
  | cons d y =>
    have hd : isDirect d = true := hy d rfl
    have hfirst : encode (d :: y) = UInt8.ofNat d.toNat :: encode y := encode_append_cons hd [] y
    rw [encode_append_cons hd, hfirst]

theorem StartsDirect.append {x y : List Char} (hx : StartsDirect x) (hy : StartsDirect y) :
    StartsDirect (x ++ y) := by
  cases x with
  | nil => exact hy
  | cons c x => exact hx

/-- Lines that are led by a line feed begin with it. -/
theorem startsDirect_led (lines : List (List Char)) : StartsDirect (Text.led '\n' lines) := by
  cases lines with
  | nil => simp [StartsDirect]
  | cons line lines => simp [StartsDirect, isDirect]

end MarkerBlock.Encoding.Utf7
