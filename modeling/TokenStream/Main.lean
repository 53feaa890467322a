import TokenStream.Command.Run

/-!
# The program

Finds out what the arguments ask for, reads the file or standard input that it takes to answer, and
writes the answer.
-/

namespace TokenStream.Command

/-- The cause that a system error code stands for. Some calls report the code negated. -/
def ReadError.ofCode (code : UInt32) (reason : String) : ReadError :=
  match min code (0 - code) with
  | 2 => notFound
  | 20 => notDirectory
  | 21 => isDirectory
  | 36 => nameTooLong
  | code => system code.toNat reason

def ReadError.ofError : IO.Error → ReadError
  | .noFileOrDirectory _ code reason | .inappropriateType _ code reason
  | .invalidArgument _ code reason | .permissionDenied _ code reason
  | .resourceExhausted _ code reason | .noSuchThing _ code reason
  | .hardwareFault code reason | .otherError code reason => ofCode code reason
  | e => system 0 (toString e)

def readBytes (name : String) : BaseIO (Except ReadError (List UInt8)) := do
  match ← (IO.FS.readBinFile name).toBaseIO with
  | .ok bytes => return .ok bytes.toList
  | .error e => return .error (.ofError e)

/-- Reads no more than the request needs. -/
def respond (arguments : List String) : IO Output := do
  match Request.ofArguments arguments with
  | .file name => return dumpFile name (← readBytes name)
  | .prompt =>
    let term := (← IO.getEnv "TERM").getD ""
    let bytes ← (← IO.getStdin).readBinToEnd
    return dumpLinesOf term bytes.toList
  | _ => return run arguments {}

end TokenStream.Command

def main (arguments : List String) : IO UInt32 := do
  let output ← TokenStream.Command.respond arguments
  IO.print output.stdout
  IO.eprint output.stderr
  return output.code.toUInt32
