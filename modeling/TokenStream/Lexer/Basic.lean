import TokenStream.Cursor
import TokenStream.Log

/-!
# Pulling tokens

A lexer is a cursor with a log and a flag that closes its stream of tokens. One token is pulled by
`scan` and all the rest by `scanAll`; `next` gives the tokens up to the first end token that it
meets itself, and nothing after that. Only `next` reads or sets the flag.
-/

namespace TokenStream

/-- A cursor that keeps a log, with a flag that tells whether `next` has given the end token. -/
structure Lexer extends Cursor where
  done : Bool := false
  log : Log := {}
deriving DecidableEq, Repr

namespace Lexer

/-- The lexer at the beginning of a source, with an empty log. -/
def ofString (source : String) (level : Level := .off) : Lexer :=
  { source, log := { level } }

/-- Pulls one token; at the end of the source that is the end token, again and again. -/
def scan (l : Lexer) : Token × Lexer :=
  let r := l.toCursor.scan
  (r.1, { l with
    toCursor := r.2
    log := if r.1.isEof then l.log else l.log.write (.scanned r.1) })

@[simp] theorem fst_scan (l : Lexer) : l.scan.1 = l.toCursor.scan.1 := rfl

@[simp] theorem toCursor_scan (l : Lexer) : l.scan.2.toCursor = l.toCursor.scan.2 := rfl

/-- Pulls tokens up to the first end token and adds them to those pulled before. -/
def drain (l : Lexer) (pulled : Array Token) : Array Token × Lexer :=
  if h : l.scan.1.isEof then (pulled.push l.scan.1, l.scan.2)
  else
    have := Cursor.remaining_scan_lt (Bool.eq_false_iff.mpr h)
    l.scan.2.drain (pulled.push l.scan.1)
termination_by l.remaining

/-- Pulls all the rest, the end token included, and reports how much that was. -/
def scanAll (l : Lexer) : List Token × Lexer :=
  let r := l.drain #[]
  (r.1.toList, { r.2 with
    log := r.2.log.write (.drained r.1.size r.2.source.utf8ByteSize) })

/-- Pulls one token unless the stream is closed, and closes it at the end token. -/
def next (l : Lexer) : Option Token × Lexer :=
  if l.done then (none, l)
  else
    let r := l.scan
    (some r.1, { r.2 with done := r.1.isEof })

/-- A bound on the number of tokens that `next` still gives. -/
def pending (l : Lexer) : Nat := if l.done then 0 else l.remaining + 1

theorem pending_next_lt {l : Lexer} {t : Token} (h : l.next.1 = some t) :
    l.next.2.pending < l.pending := by
  simp only [next] at h ⊢
  split at h
  · cases h
  · next hd =>
    simp only [pending, hd]
    cases ht : l.scan.1.isEof
    · have := @Cursor.remaining_scan_lt l.toCursor ht
      simpa using this
    · simp

end Lexer

end TokenStream
