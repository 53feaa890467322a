import TokenStream.Token

/-!
# The log of a lexer

A lexer writes a record for every token it scans, the end token apart, and one for every scan of
the whole rest. A log keeps the records that its level admits, in the order in which they came.
-/

namespace TokenStream

/-- How much a log keeps, from nothing to everything. -/
inductive Level where
  | off | error | warn | info | debug | trace
deriving DecidableEq, Repr

namespace Level

def rank : Level → Nat
  | off => 0
  | error => 1
  | warn => 2
  | info => 3
  | debug => 4
  | trace => 5

/-- Whether a log of the level `limit` keeps records of the level `l`. -/
def admits (limit l : Level) : Bool := l.rank ≤ limit.rank

/-- The level in lower case, as it is asked for. -/
def name : Level → String
  | off => "off"
  | error => "error"
  | warn => "warn"
  | info => "info"
  | debug => "debug"
  | trace => "trace"

/-- The level in upper case, as it heads a record. -/
def label : Level → String
  | off => "OFF"
  | error => "ERROR"
  | warn => "WARN"
  | info => "INFO"
  | debug => "DEBUG"
  | trace => "TRACE"

def ofName? (s : String) : Option Level :=
  [off, error, warn, info, debug, trace].find? (·.name == s)

theorem ofName?_name (l : Level) : ofName? l.name = some l := by cases l <;> decide

end Level

inductive Record where
  | scanned (t : Token)
  /-- All the rest was scanned: the number of tokens, and of bytes of the whole source. -/
  | drained (tokens bytes : Nat)
deriving DecidableEq, Repr

namespace Record

def level : Record → Level
  | scanned _ => .trace
  | drained _ _ => .debug

/-- The channel that every record names. -/
def channel : String := "oro::lex::scan"

def message : Record → String
  | scanned t =>
    t.display ++ " at " ++ toString t.span.lo ++ ".." ++ toString t.span.hi
  | drained tokens bytes =>
    "scanned " ++ toString tokens ++ " tokens from " ++ toString bytes ++ " bytes"

end Record

structure Log where
  level : Level := .off
  records : Array Record := #[]
deriving DecidableEq, Repr

namespace Log

def write (log : Log) (r : Record) : Log :=
  if log.level.admits r.level then { log with records := log.records.push r } else log

def flush (log : Log) : Log := { log with records := #[] }

@[simp] theorem level_write (log : Log) (r : Record) : (log.write r).level = log.level := by
  simp only [write]; split <;> rfl

theorem toList_records_write (log : Log) (r : Record) :
    (log.write r).records.toList =
      log.records.toList ++ [r].filter (fun r => log.level.admits r.level) := by
  simp only [write]; split <;> simp_all

end Log

end TokenStream
