import CowMachine.CommandLine.Response

/-!
# The command

Opens the source, takes in the whole of the standard input if there is a program
to run, and writes the response.
-/

set_option autoImplicit false

namespace CowMachine.CommandLine

open Source (Path FileError)

/-- A directory is noticed only on reading, when the path is not known. -/
def fileErrorOf? : IO.Error → Option FileError
  | .noFileOrDirectory _ _ _ => some .notFound
  | .inappropriateType (some _) _ _ => some .notDirectory
  | .inappropriateType none _ _ => some .isDirectory
  | .permissionDenied _ _ _ => some .denied
  | .invalidArgument _ 22 _ => some .nullCharacter
  | .invalidArgument _ _ _ => some .tooLong
  | _ => none

def openSource (p : Path) : IO (Except FileError (List UInt8)) := do
  try
    let bytes ← IO.FS.readBinFile (String.ofList p.text)
    return .ok bytes.toList
  catch e =>
    match fileErrorOf? e with
    | some error => return .error error
    | none => throw e

partial def readAll (stream : IO.FS.Stream) (sofar : ByteArray) : IO ByteArray := do
  let chunk ← stream.read 8192
  if chunk.isEmpty then return sofar
  readAll stream (sofar ++ chunk)

def lifetime : Nat := 0x4000000000000000

/-- The input is left alone where no response depends on it, by
`runSource_of_not_loads`. -/
def respondLive (arguments : List Text) : IO (Option Response) := do
  match Request.ofArguments arguments with
  | .ok (.run _ source) =>
    let file ← openSource (.ofText source)
    let bytes ← if loads file then readAll (← IO.getStdin) ByteArray.empty else pure .empty
    return respond arguments (fun _ => file) (.ofBytes bytes.toList false) lifetime
  | _ => return respond arguments (fun _ => .error .notFound) (.ofText [] false) lifetime

end CowMachine.CommandLine

open CowMachine.CommandLine in
def main (arguments : List String) : IO UInt32 := do
  match ← respondLive (arguments.map String.toList) with
  | some response =>
    (← IO.getStdout).putStr (String.ofList response.output)
    (← IO.getStderr).putStr (String.ofList response.errors)
    return response.code.toUInt32
  | none => return Exit.failed.code.toUInt32
