import TokenStream.Text.Unprintable

/-!
# Quoted texts

A quoted text stands between double quotes, each character written on its own: a few as a backslash
and a letter, the other unprintable ones as a backslash, `u` and the code point in hexadecimal
between braces, and all others as themselves.
-/

namespace TokenStream.Quoted

/-- The characters written as a backslash and one more character, with that character. -/
def letter? : Char → Option Char
  | '"' => some '"'
  | '\\' => some '\\'
  | '\x00' => some '0'
  | '\t' => some 't'
  | '\r' => some 'r'
  | '\n' => some 'n'
  | _ => none

def escape (c : Char) : List Char :=
  match letter? c with
  | some l => ['\\', l]
  | none =>
    if isUnprintable c then ['\\', 'u', '{'] ++ Nat.toDigits 16 c.toNat ++ ['}'] else [c]

def encode (cs : List Char) : List Char := cs.flatMap escape

def quote (s : String) : String := String.ofList ('"' :: encode s.toList ++ ['"'])

@[simp] theorem encode_cons (c : Char) (cs : List Char) :
    encode (c :: cs) = escape c ++ encode cs := rfl

theorem toList_quote (s : String) : (quote s).toList = '"' :: encode s.toList ++ ['"'] := by
  simp [quote]

end TokenStream.Quoted
