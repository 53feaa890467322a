import TokenStream.Kind.Basic

/-!
# Spellings

Three tables relate kinds and texts: the fixed spelling of a kind, the kind of a word, and the kind
of a single mark. Identifiers, numbers and the like have no fixed spelling. Spellings of more than
one mark, and those of the escape sequences, are known here although no scan produces them.
-/

namespace TokenStream

def Keyword.spelling : Keyword → String
  | varWord => "var"
  | fnWord => "fn"
  | returnWord => "return"
  | printWord => "print"
  | ifWord => "if"
  | elseWord => "else"
  | forWord => "for"
  | whileWord => "while"
  | trueWord => "true"
  | falseWord => "false"
  | nullWord => "null"
  | breakWord => "break"
  | continueWord => "continue"

def Operator.spelling : Operator → String
  | plus => "+"
  | minus => "-"
  | multiply => "*"
  | divide => "/"
  | modulo => "%"
  | bitwiseAnd => "&"
  | bitwiseOr => "|"
  | bitwiseNot => "~"
  | bitwiseXor => "^"
  | shiftRight => ">>"
  | shiftLeft => "<<"
  | lessThan => "<"
  | greaterThan => ">"
  | lessEqual => "<="
  | greaterEqual => ">="
  | equality => "=="
  | inequality => "!="
  | logicalAnd => "&&"
  | logicalOr => "||"
  | logicalNot => "!"

def Assignment.spelling : Assignment → String
  | plain => "="
  | plus => "+="
  | minus => "-="
  | multiply => "*="
  | divide => "/="
  | modulo => "%="
  | bitwiseAnd => "&="
  | bitwiseOr => "|="
  | bitwiseXor => "^="
  | shiftLeft => "<<="
  | shiftRight => ">>="

def Delimiter.spelling : Delimiter → String
  | question => "?"
  | colon => ":"
  | semicolon => ";"
  | dot => "."
  | comma => ","
  | leftParenthesis => "("
  | rightParenthesis => ")"
  | leftCurlyBrace => "\x7b"
  | rightCurlyBrace => "\x7d"
  | leftSquareBracket => "["
  | rightSquareBracket => "]"

/-- The escape sequence as it is written: a backslash and one more character. -/
def Escape.spelling : Escape → String
  | bell => "\\a"
  | backspace => "\\b"
  | formFeed => "\\f"
  | newLine => "\\n"
  | carriageReturn => "\\r"
  | horizontalTab => "\\t"
  | verticalTab => "\\v"
  | backslash => "\\\\"
  | quote => "\\\""
  | apostrophe => "\\'"

namespace Kind

/-- The text that every token of the kind has, for the kinds that have one. -/
def spelling? : Kind → Option String
  | keyword w => some w.spelling
  | operator o => some o.spelling
  | assignment a => some a.spelling
  | delimiter d => some d.spelling
  | escape e => some e.spelling
  | comment => some "#"
  | eof | identifier | string | number | bool | unknown => none

/-- The kind of a word: a keyword if it is spelled exactly so, else an identifier. -/
def ofWord : String → Kind
  | "var" => keyword .varWord
  | "fn" => keyword .fnWord
  | "return" => keyword .returnWord
  | "print" => keyword .printWord
  | "if" => keyword .ifWord
  | "else" => keyword .elseWord
  | "for" => keyword .forWord
  | "while" => keyword .whileWord
  | "true" => keyword .trueWord
  | "false" => keyword .falseWord
  | "null" => keyword .nullWord
  | "break" => keyword .breakWord
  | "continue" => keyword .continueWord
  | _ => identifier

/-- The kind of a single mark. Marks are never combined into longer operators. -/
def ofMark? : Char → Option Kind
  | '=' => some (assignment .plain)
  | '+' => some (operator .plus)
  | '-' => some (operator .minus)
  | '*' => some (operator .multiply)
  | '/' => some (operator .divide)
  | '%' => some (operator .modulo)
  | '&' => some (operator .bitwiseAnd)
  | '|' => some (operator .bitwiseOr)
  | '~' => some (operator .bitwiseNot)
  | '^' => some (operator .bitwiseXor)
  | '<' => some (operator .lessThan)
  | '>' => some (operator .greaterThan)
  | '!' => some (operator .logicalNot)
  | '?' => some (delimiter .question)
  | ':' => some (delimiter .colon)
  | ';' => some (delimiter .semicolon)
  | '.' => some (delimiter .dot)
  | ',' => some (delimiter .comma)
  | '(' => some (delimiter .leftParenthesis)
  | ')' => some (delimiter .rightParenthesis)
  | '{' => some (delimiter .leftCurlyBrace)
  | '}' => some (delimiter .rightCurlyBrace)
  | '[' => some (delimiter .leftSquareBracket)
  | ']' => some (delimiter .rightSquareBracket)
  | '#' => some comment
  | _ => none

end Kind

end TokenStream
