import TokenStream.Kind.Name
import TokenStream.Span
import TokenStream.Text.Quoted

/-!
# Tokens

A token is a kind, a text and the span of that text. Tokens can be written in two ways: shortly, as
the kind and the quoted text, and with all fields by name.
-/

namespace TokenStream

structure Token where
  kind : Kind
  text : String
  span : Span
deriving DecidableEq, Repr

namespace Token

/-- The token that stands for the end of a source of `pos` bytes. -/
def eof (pos : Nat) : Token := ⟨.eof, "", .point pos⟩

def isEof (t : Token) : Bool := t.kind == .eof

/-- The kind, with the quoted text in parentheses. -/
def display (t : Token) : String := t.kind.name ++ "(" ++ Quoted.quote t.text ++ ")"

def describe (t : Token) : String :=
  "Token \x7b kind: " ++ t.kind.name ++ ", text: " ++ Quoted.quote t.text ++ ", span: " ++
    t.span.describe ++ " \x7d"

/-- The token as it lies in a text that has `offset` more bytes in front. -/
def shift (offset : Nat) (t : Token) : Token := { t with span := t.span.shift offset }

@[simp] theorem isEof_eof (pos : Nat) : (eof pos).isEof = true := rfl

end Token

end TokenStream
