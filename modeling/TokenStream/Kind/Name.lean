import TokenStream.Kind.Basic

/-!
# Names of kinds

Every kind has one name, the word that stands before the text in a printed token, and no two kinds
share one: `Kind.ofName?` finds the kind again.
-/

namespace TokenStream

def Keyword.name : Keyword → String
  | varWord => "Variable"
  | fnWord => "Function"
  | returnWord => "Return"
  | printWord => "Print"
  | ifWord => "If"
  | elseWord => "Else"
  | forWord => "For"
  | whileWord => "While"
  | trueWord => "True"
  | falseWord => "False"
  | nullWord => "Null"
  | breakWord => "Break"
  | continueWord => "Continue"

def Operator.name : Operator → String
  | plus => "Plus"
  | minus => "Minus"
  | multiply => "Multiply"
  | divide => "Divide"
  | modulo => "Modulo"
  | bitwiseAnd => "BitwiseAnd"
  | bitwiseOr => "BitwiseOr"
  | bitwiseNot => "BitwiseNot"
  | bitwiseXor => "BitwiseXor"
  | shiftRight => "BitwiseRightShift"
  | shiftLeft => "BitwiseLeftShift"
  | lessThan => "LessThan"
  | greaterThan => "GreaterThan"
  | lessEqual => "LessEqual"
  | greaterEqual => "GreaterEqual"
  | equality => "Equality"
  | inequality => "Inequality"
  | logicalAnd => "LogicalAnd"
  | logicalOr => "LogicalOr"
  | logicalNot => "LogicalNot"

def Assignment.name : Assignment → String
  | plain => "Assignment"
  | plus => "PlusAssignment"
  | minus => "MinusAssignment"
  | multiply => "MultiplyAssignment"
  | divide => "DivideAssignment"
  | modulo => "ModuloAssignment"
  | bitwiseAnd => "BitwiseAndAssignment"
  | bitwiseOr => "BitwiseOrAssignment"
  | bitwiseXor => "BitwiseXorAssignment"
  | shiftLeft => "BitwiseLeftShiftAssignment"
  | shiftRight => "BitwiseRightShiftAssignment"

def Delimiter.name : Delimiter → String
  | question => "Question"
  | colon => "Colon"
  | semicolon => "Semicolon"
  | dot => "Dot"
  | comma => "Comma"
  | leftParenthesis => "LeftParenthesis"
  | rightParenthesis => "RightParenthesis"
  | leftCurlyBrace => "LeftCurlyBrace"
  | rightCurlyBrace => "RightCurlyBrace"
  | leftSquareBracket => "LeftSquareBracket"
  | rightSquareBracket => "RightSquareBracket"

def Escape.name : Escape → String
  | bell => "EscapeBell"
  | backspace => "EscapeBackspace"
  | formFeed => "EscapeFormFeed"
  | newLine => "EscapeNewLine"
  | carriageReturn => "EscapeCarriageReturn"
  | horizontalTab => "EscapeHorizontalTab"
  | verticalTab => "EscapeVerticalTab"
  | backslash => "EscapeBackslash"
  | quote => "EscapeQuote"
  | apostrophe => "EscapeApostrophe"

namespace Kind

def name : Kind → String
  | eof => "Eof"
  | keyword w => w.name
  | identifier => "Identifier"
  | string => "String"
  | number => "Number"
  | bool => "Bool"
  | operator o => o.name
  | assignment a => a.name
  | delimiter d => d.name
  | escape e => e.name
  | comment => "Comment"
  | unknown => "Unknown"

def all : List Kind :=
  [eof, identifier, string, number, bool, comment, unknown] ++
  ([.varWord, .fnWord, .returnWord, .printWord, .ifWord, .elseWord, .forWord, .whileWord,
    .trueWord, .falseWord, .nullWord, .breakWord, .continueWord] : List Keyword).map keyword ++
  ([.plus, .minus, .multiply, .divide, .modulo, .bitwiseAnd, .bitwiseOr, .bitwiseNot, .bitwiseXor,
    .shiftRight, .shiftLeft, .lessThan, .greaterThan, .lessEqual, .greaterEqual, .equality,
    .inequality, .logicalAnd, .logicalOr, .logicalNot] : List Operator).map operator ++
  ([.plain, .plus, .minus, .multiply, .divide, .modulo, .bitwiseAnd, .bitwiseOr, .bitwiseXor,
    .shiftLeft, .shiftRight] : List Assignment).map assignment ++
  ([.question, .colon, .semicolon, .dot, .comma, .leftParenthesis, .rightParenthesis,
    .leftCurlyBrace, .rightCurlyBrace, .leftSquareBracket,
    .rightSquareBracket] : List Delimiter).map delimiter ++
  ([.bell, .backspace, .formFeed, .newLine, .carriageReturn, .horizontalTab, .verticalTab,
    .backslash, .quote, .apostrophe] : List Escape).map escape

def ofName? (s : String) : Option Kind := all.find? (·.name == s)

theorem mem_all (k : Kind) : k ∈ all := by
  rcases k with _ | w | _ | _ | _ | _ | o | a | d | e | _ | _
  case keyword => cases w <;> decide
  case operator => cases o <;> decide
  case assignment => cases a <;> decide
  case delimiter => cases d <;> decide
  case escape => cases e <;> decide
  all_goals decide

/-- Every kind is found again by its name, so names tell kinds apart. -/
theorem ofName?_name (k : Kind) : ofName? k.name = some k := by
  have h : ∀ k ∈ all, ofName? k.name = some k := by decide +kernel
  exact h k (mem_all k)

/-- Names are made of letters, so whatever else follows a name ends it. -/
theorem isAlpha_of_mem_name {k : Kind} {c : Char} (hc : c ∈ k.name.toList) : c.isAlpha = true := by
  have h : ∀ k ∈ all, k.name.toList.all Char.isAlpha = true := by decide +kernel
  exact List.all_eq_true.mp (h k (mem_all k)) c hc

end Kind

end TokenStream
