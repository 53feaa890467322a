/-!
# Arguments of the command

The command takes at most one operand, the name of a file, and two options, each in a long and a
short form. Arguments are read from left to right, and the first one that settles what is asked for
ends the reading: any option does, and so does a second operand. After `--` there are no options.
-/

namespace TokenStream.Command

inductive Request where
  | help
  | version
  /-- An argument that has no place, in the form in which it is reported. -/
  | reject (argument : String)
  | file (name : String)
  /-- Without an operand, standard input is read line by line. -/
  | prompt
deriving DecidableEq, Repr

namespace Request

/-- The meaning of a long option. Leading dashes do not belong to its name, nor does anything from
the first equals sign on. -/
def ofLong (cs : List Char) : Request :=
  let name := (cs.dropWhile (· == '-')).takeWhile (· != '=')
  if name = "help".toList then help
  else if name = "version".toList then version
  else reject (String.ofList ('-' :: '-' :: name))

/-- The meaning of a group of short options, which its first letter settles. -/
def ofShort (c : Char) : Request :=
  if c = 'h' then help
  else if c = 'V' then version
  else reject (String.ofList ['-', c])

/-- What an argument other than `--` asks for if it is an option. A dash alone is an operand. -/
def ofOption? (argument : String) : Option Request :=
  match argument.toList with
  | '-' :: '-' :: cs => some (ofLong cs)
  | '-' :: c :: _ => some (ofShort c)
  | _ => none

/-- The request once the operand so far is known and no option can follow. -/
def ofOperands : Option String → List String → Request
  | none, [] => prompt
  | some name, [] => file name
  | none, a :: rest => ofOperands (some a) rest
  | some _, a :: _ => reject a

def ofRest (operand : Option String) : List String → Request
  | [] => ofOperands operand []
  | a :: rest =>
    if a = "--" then ofOperands operand rest
    else match ofOption? a, operand with
      | some request, _ => request
      | none, none => ofRest (some a) rest
      | none, some _ => reject a

def ofArguments (arguments : List String) : Request := ofRest none arguments

end Request

end TokenStream.Command
