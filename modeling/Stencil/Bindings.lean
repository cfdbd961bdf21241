import Stencil.Session
import Stencil.Value.Same

/-! Bindings: collections of named values. A sequence of pairs gives one as well, where a pair is any sequence of two,
and so does every empty value. -/

namespace Stencil

inductive BindingFault where
  | noItems (kind : String)
  | noPair (index : Nat)
  | pairLength (index length : Nat)
  /-- A value of this kind can change, so nothing is found under it. -/
  | changeableKey (kind : String)
  deriving DecidableEq, Repr

namespace BindingFault

def message : BindingFault → String
  | .noItems kind => "'" ++ kind ++ "' object is not iterable"
  | .noPair index => "cannot convert dictionary update sequence element #" ++ toString index ++ " to a sequence"
  | .pairLength index length =>
    "dictionary update sequence element #" ++ toString index ++ " has length " ++ toString length ++ "; 2 is required"
  | .changeableKey kind => "unhashable type: '" ++ kind ++ "'"

end BindingFault

namespace Value

mutual
/-- The kind of the first part of a value that can change, be it the value itself. -/
def changeable? : Value → Option String
  | .list _ => some "list"
  | .dict _ => some "dict"
  | .tuple items => changeableIn? items
  | _ => none

def changeableIn? : List Value → Option String
  | [] => none
  | item :: items => (changeable? item).or (changeableIn? items)
end

end Value

abbrev Binding := EStateM BindingFault Session

namespace Binding

/-- The items of a value that has any: the code points of a text, the numbers of bytes, the keys of a dict. A stream is
used up. -/
def items? : Value → Binding (Option (List Value))
  | .text content => return some (content.map fun point => .text [point])
  | .bytes content => return some (content.map fun byte => .int byte.toNat)
  | .list items | .tuple items => return some items
  | .dict entries => return some (entries.map Prod.fst)
  | .stream id => do
    let session ← get
    set (session.exhaust id)
    return some (session.remaining id)
  | .null | .missing | .bool _ | .int _ | .float _ => return none

def putPair (index : Nat) (entries : List (Value × Value)) (item : Value) : Binding (List (Value × Value)) := do
  match ← items? item with
  | none => throw (.noPair index)
  | some [key, value] =>
    match key.changeable? with
    | some kind => throw (.changeableKey kind)
    | none => return Value.put key value entries
  | some items => throw (.pairLength index items.length)

def putPairs (index : Nat) (entries : List (Value × Value)) : List Value → Binding (List (Value × Value))
  | [] => return entries
  | item :: items => do putPairs (index + 1) (← putPair index entries item) items

def ofValue (value : Value) : Binding Value := do
  match value with
  | .dict entries => return .dict entries
  | value =>
    if !value.truthy then return .dict []
    else match ← items? value with
      | none => throw (.noItems value.kind)
      | some items => return .dict (← putPairs 0 [] items)

end Binding
end Stencil
