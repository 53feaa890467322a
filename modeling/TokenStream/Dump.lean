import TokenStream.Lexer.Iteration

/-!
# Dumps

A dump of a source has one line for each token of its stream, the end token included.
-/

namespace TokenStream

/-- The tokens of a source up to and including the end token. -/
def tokens (source : String) : List Token := (Lexer.ofString source).collect.1

def dumpLines (source : String) : List String := (tokens source).map Token.display

/-- A dump as text, every line ended by a line feed. -/
def dump (source : String) : String := String.join ((dumpLines source).map (· ++ "\n"))

end TokenStream
