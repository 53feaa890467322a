import TokenStream.Command.Arguments
import TokenStream.Command.FileTree
import TokenStream.Command.Lines
import TokenStream.Dump

/-!
# The command

The command dumps the tokens of one file, or of each line of standard input when no file is named.
Its output is a function of the arguments, the file tree, standard input and the terminal.
-/

namespace TokenStream.Command

structure Output where
  code : Nat := 0
  stdout : String := ""
  stderr : String := ""
deriving DecidableEq, Repr

structure Environment where
  files : FileTree := {}
  stdin : List UInt8 := []
  term : String := "xterm"

def versionText : String := "oro 0.1.0\n"

def usageText : String := "USAGE:\n    oro [FILE_NAME]\n"

def helpText : String :=
  versionText ++
  "Dump the token stream of an Oro source file, or of each line typed at the prompt when no " ++
  "file is given\n\n" ++
  usageText ++
  "\nFLAGS:\n" ++
  "    -h, --help       Prints help information\n" ++
  "    -V, --version    Prints version information\n" ++
  "\nARGS:\n" ++
  "    <FILE_NAME>    \n"

inductive Failure where
  | unexpected (argument : String)
  | unreadable (name : String) (cause : ReadError)
deriving DecidableEq, Repr

def Failure.message : Failure → String
  | unexpected argument =>
    "error: Found argument '" ++ argument ++
    "' which wasn't expected, or isn't valid in this context\n\n" ++
    usageText ++
    "\nFor more information try --help\n"
  | unreadable name cause =>
    "Error: failed to read " ++ name ++ "\n\nCaused by:\n    " ++ cause.message ++ "\n"

def Output.ofFailure (failure : Failure) : Output := { code := 1, stderr := failure.message }

/-- A file is dumped as a whole, and not at all unless all of it is text. -/
def dumpFile (name : String) (content : Except ReadError (List UInt8)) : Output :=
  match content with
  | .error cause => .ofFailure (.unreadable name cause)
  | .ok bytes =>
    match decode? bytes with
    | none => .ofFailure (.unreadable name .notText)
    | some source => { stdout := dump source }

/-- The terminals on which a prompt is written although no line is edited. -/
def plainTerminals : List String := ["dumb", "cons25", "emacs"]

def promptFor (term : String) : String :=
  if term.toLower ∈ plainTerminals then "$ " else ""

/-- What is written while lines are read, in order: the prompt before each attempt to read, and the
dump of each line. A line that is not text ends the reading. -/
def converse (prompt : String) : List (List UInt8) → List String
  | [] => [prompt]
  | line :: lines =>
    match decode? line with
    | none => [prompt]
    | some source => prompt :: dump source :: converse prompt lines

def dumpLinesOf (term : String) (stdin : List UInt8) : Output :=
  { stdout := String.join (converse (promptFor term) (splitLines stdin)) }

def run (arguments : List String) (environment : Environment) : Output :=
  match Request.ofArguments arguments with
  | .help => { stdout := helpText }
  | .version => { stdout := versionText }
  | .reject argument => .ofFailure (.unexpected argument)
  | .file name => dumpFile name (environment.files.read name)
  | .prompt => dumpLinesOf environment.term environment.stdin

theorem run_of_file {arguments : List String} {f : String}
    (h : Request.ofArguments arguments = .file f) (env : Environment) :
    run arguments env = dumpFile f (env.files.read f) := by
  rw [run, h]

theorem run_of_prompt {arguments : List String} (h : Request.ofArguments arguments = .prompt)
    (env : Environment) : run arguments env = dumpLinesOf env.term env.stdin := by
  rw [run, h]

end TokenStream.Command
