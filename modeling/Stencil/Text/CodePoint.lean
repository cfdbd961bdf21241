/-! Texts by their code points. Two surrogates can stand for one character, but each of them by itself is a code point that is
no character. -/

namespace Stencil.Text

inductive CodePoint where
  | char (c : Char)
  /-- A surrogate, by its place among them. -/
  | surrogate (index : Fin 0x800)
  deriving DecidableEq, Repr

namespace CodePoint

def number : CodePoint → Nat
  | .char c => c.toNat
  | .surrogate index => 0xD800 + index

def isSurrogate : CodePoint → Bool
  | .char _ => false
  | .surrogate _ => true

end CodePoint

def points (text : String) : List CodePoint := text.toList.map .char

instance : Coe String (List CodePoint) := ⟨points⟩

@[simp] theorem points_append (left right : String) : points (left ++ right) = points left ++ points right := by
  rw [points, String.toList_append, List.map_append]
  rfl

@[simp] theorem points_inj {left right : String} : points left = points right ↔ left = right := by
  rw [points, points, List.map_inj_right fun _ _ => CodePoint.char.inj, String.toList_inj]

@[simp] theorem points_eq_nil {text : String} : points text = [] ↔ text = "" := by
  rw [points, List.map_eq_nil_iff, String.toList_eq_nil_iff]

end Stencil.Text
