/-!
# Kinds of token

A kind is an inductive type over its groups, so that whether a kind is a keyword, an operator, an
assignment or a delimiter is read off its constructor.
-/

namespace TokenStream

inductive Keyword where
  | varWord | fnWord | returnWord | printWord | ifWord | elseWord | forWord | whileWord
  | trueWord | falseWord | nullWord | breakWord | continueWord
deriving DecidableEq, Repr

/-- The operators that leave their operands unchanged. -/
inductive Operator where
  | plus | minus | multiply | divide | modulo
  | bitwiseAnd | bitwiseOr | bitwiseNot | bitwiseXor | shiftRight | shiftLeft
  | lessThan | greaterThan | lessEqual | greaterEqual | equality | inequality
  | logicalAnd | logicalOr | logicalNot
deriving DecidableEq, Repr

/-- The operators that store into their left operand. -/
inductive Assignment where
  | plain | plus | minus | multiply | divide | modulo
  | bitwiseAnd | bitwiseOr | bitwiseXor | shiftLeft | shiftRight
deriving DecidableEq, Repr

inductive Delimiter where
  | question | colon | semicolon | dot | comma
  | leftParenthesis | rightParenthesis
  | leftCurlyBrace | rightCurlyBrace
  | leftSquareBracket | rightSquareBracket
deriving DecidableEq, Repr

inductive Escape where
  | bell | backspace | formFeed | newLine | carriageReturn
  | horizontalTab | verticalTab | backslash | quote | apostrophe
deriving DecidableEq, Repr

inductive Kind where
  | eof
  | keyword (w : Keyword)
  | identifier
  | string
  | number
  | bool
  | operator (o : Operator)
  | assignment (a : Assignment)
  | delimiter (d : Delimiter)
  | escape (e : Escape)
  /-- The mark that opens a comment. -/
  | comment
  /-- A character that belongs to no other kind. -/
  | unknown
deriving DecidableEq, Repr

namespace Kind

def isKeyword : Kind → Bool
  | keyword _ => true
  | _ => false

def isAssignment : Kind → Bool
  | assignment _ => true
  | _ => false

/-- Assignments count as operators. -/
def isOperator : Kind → Bool
  | operator _ => true
  | k => k.isAssignment

def isDelimiter : Kind → Bool
  | delimiter _ => true
  | _ => false

end Kind

end TokenStream
