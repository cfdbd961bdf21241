import Stencil.Cursor

/-! How far a text reaches: how many line breaks it has and how much stands behind the last of them. Behind a text, places
lie further down by its breaks and, on the line where it ends, further right by what stands there already. -/

namespace Stencil

structure Extent where
  breaks : Nat
  /-- The characters behind the last line break. -/
  width : Nat
  deriving DecidableEq, Repr

namespace Extent

def nothing : Extent := ⟨0, 0⟩

def of (text : List Char) : Extent := ⟨text.count '\n', (text.reverse.takeWhile (· ≠ '\n')).length⟩

/-- Where a place in a source lies when a text of this extent is put before the source. -/
def shift (extent : Extent) (position : Position) : Position :=
  ⟨extent.breaks + position.line, if position.line = 1 then extent.width + position.column else position.column⟩

@[simp] theorem shift_nothing (position : Position) : nothing.shift position = position := by
  simp [shift, nothing]

end Extent

namespace Cursor
variable {cursor there : Cursor} {extent : Extent} {tail : List Char}

/-- The place so many characters into a source. -/
abbrev into (source content : String) (count : Nat) : Cursor := forwardBy count (.ofSource source content)

theorem forwardBy_add (first more : Nat) (cursor : Cursor) :
    cursor.forwardBy (first + more) = (cursor.forwardBy first).forwardBy more := by
  induction first generalizing cursor with
  | zero => rw [Nat.zero_add]; rfl
  | succ first ih => rw [Nat.succ_add]; exact ih cursor.forward

@[simp] theorem before_forwardBy (count : Nat) (cursor : Cursor) :
    (cursor.forwardBy count).before = (cursor.rest.take count).reverse ++ cursor.before := by
  induction count generalizing cursor with
  | zero => rfl
  | succ count ih =>
    rw [forwardBy, ih]
    cases ahead : cursor.rest with
    | nil => simp [forward, ahead]
    | cons c rest => simp [forward, ahead]

def Placed (cursor : Cursor) : Prop := cursor.position = (Extent.of cursor.before.reverse).shift ⟨1, 0⟩

theorem placed_iff : cursor.Placed ↔ cursor.line = 1 + cursor.before.count '\n' ∧
    cursor.column = (cursor.before.takeWhile (· ≠ '\n')).length := by
  simp only [Placed, position, Extent.shift, Extent.of, Position.mk.injEq, if_true, List.count_reverse,
    List.reverse_reverse]
  omega

theorem placed_ofSource (source content : String) : (ofSource source content).Placed := rfl

theorem Placed.forward (placed : cursor.Placed) : cursor.forward.Placed := by
  obtain ⟨line, column⟩ := placed_iff.mp placed
  cases ahead : cursor.rest with
  | nil => simpa [Cursor.forward, ahead] using placed
  | cons c rest =>
    rw [placed_iff]
    by_cases breaks : c = '\n'
    · simp only [Cursor.forward, ahead, breaks, if_true, line]
      exact ⟨by simp; omega, by simp⟩
    · simp only [Cursor.forward, ahead, breaks, if_false]
      exact ⟨by simpa [breaks] using line, by simpa [breaks] using column⟩

theorem Placed.forwardBy (placed : cursor.Placed) (count : Nat) : (cursor.forwardBy count).Placed := by
  induction count generalizing cursor with
  | zero => exact placed
  | succ count ih => exact ih placed.forward

/-- Another cursor over the same characters and a tail behind them, further on by an extent. -/
structure Beyond (extent : Extent) (tail : List Char) (cursor there : Cursor) : Prop where
  ahead : there.rest = cursor.rest ++ tail
  started : 1 ≤ cursor.line
  place : there.position = extent.shift cursor.position

theorem Beyond.forward (beyond : Beyond extent tail cursor there) (more : 0 < cursor.rest.length) :
    Beyond extent tail cursor.forward there.forward := by
  obtain ⟨ahead, started, place⟩ := beyond
  obtain ⟨c, behind, here⟩ := List.exists_cons_of_length_pos more
  have same : there.rest = c :: (behind ++ tail) := by rw [ahead, here]; rfl
  simp only [position, Extent.shift, Position.mk.injEq] at place
  refine ⟨by rw [rest_forward, rest_forward, same, here]; rfl, ?_, ?_⟩
  · simp only [Cursor.forward, here]
    split <;> omega
  · simp only [position, Cursor.forward, here, same, Extent.shift, Position.mk.injEq]
    split
    · refine ⟨by omega, ?_⟩
      rw [if_neg (by omega)]
    · refine ⟨place.1, ?_⟩
      have column := place.2
      split at column <;> omega

theorem Beyond.forwardBy (beyond : Beyond extent tail cursor there) {count : Nat} (inside : count ≤ cursor.rest.length) :
    Beyond extent tail (cursor.forwardBy count) (there.forwardBy count) := by
  induction count generalizing cursor there with
  | zero => exact beyond
  | succ count ih =>
    apply ih (beyond.forward (by omega))
    rw [rest_forward, List.length_tail]
    omega

/-- At the end of a text that another follows, the cursor is beyond the start of the other. -/
theorem beyond_of_read {source content other : String} {cursor : Cursor} (placed : cursor.Placed)
    (read : cursor.before = content.toList.reverse) (ahead : cursor.rest = other.toList) :
    Beyond (.of content.toList) [] (ofSource source other) cursor := by
  refine ⟨by simp [ofSource, ahead], by simp [ofSource], ?_⟩
  rw [placed, read, List.reverse_reverse]
  rfl

end Cursor
end Stencil
