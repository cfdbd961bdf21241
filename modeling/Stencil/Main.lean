import Stencil.Command.Run

/-! The program on the files of the machine it runs on. -/

namespace Stencil.Command

/-- The number of a system error, which some calls report below zero, and its text. -/
def AccessError.ofNumber (word : UInt32) (details : String) : AccessError :=
  let number := (if word < 0x80000000 then word else 0 - word).toNat
  if number = AccessError.notFound.number then .notFound
  else if number = AccessError.notADirectory.number then .notADirectory
  else if number = AccessError.isADirectory.number then .isADirectory
  else if number = AccessError.nameTooLong.number then .nameTooLong
  else if number = 13 then .other number "Permission denied"
  else .other number details

def AccessError.ofSystem : IO.Error → AccessError
  | .noFileOrDirectory _ number details => ofNumber number details
  | .inappropriateType _ number details => ofNumber number details
  | .invalidArgument _ number details => ofNumber number details
  | .permissionDenied _ number details => ofNumber number details
  | error => .other 5 (toString error)

def attempt {α : Type} (location : Location) (action : IO α) : IO (Except AccessError α) := do
  if '\x00' ∈ location.text.toList then return .error .nullCharacter
  try
    return .ok (← action)
  catch error =>
    return .error (.ofSystem error)

instance : Files IO where
  read location := attempt location do
    let path := (← IO.currentDir) / location.text
    if ← path.isDir then throw (.inappropriateType none 21 "")
    return (← IO.FS.readBinFile path).toList
  isDirectory location := attempt location do
    return ← ((← IO.currentDir) / location.text).isDir
  names location := do
    return (← ((← IO.currentDir) / location.text).readDir).toList.map fun entry => entry.fileName
  write location text := attempt location do
    let path := (← IO.currentDir) / location.text
    if ← path.isDir then throw (.inappropriateType none 21 "")
    IO.FS.writeFile path text

end Stencil.Command

def main (words : List String) : IO UInt32 := do
  let outcome ← Stencil.Command.run words
  IO.print outcome.output
  IO.eprint outcome.errors
  return UInt32.ofNat outcome.exitCode
