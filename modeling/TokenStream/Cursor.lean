import TokenStream.Kind.Spelling
import TokenStream.Source
import TokenStream.Token

/-!
# Scanning one token

A cursor stands at a byte offset of a source. A scan skips blanks, lets the byte it stops at decide
the class of the lexeme, moves over the longest lexeme of that class, and cuts the text out of the
source. Only words and numbers are longer than one character.
-/

namespace TokenStream

/-- Space, tab, carriage return and line feed. -/
def isBlank (b : UInt8) : Bool := b == 0x20 || b == 0x09 || b == 0x0d || b == 0x0a

def isDigit (b : UInt8) : Bool := 0x30 ≤ b && b ≤ 0x39

/-- The ASCII letters and the underscore. -/
def isWordStart (b : UInt8) : Bool :=
  (0x61 ≤ b && b ≤ 0x7a) || (0x41 ≤ b && b ≤ 0x5a) || b == 0x5f

def isWordByte (b : UInt8) : Bool := isWordStart b || isDigit b

inductive LexemeClass where
  /-- A letter or underscore, then letters, underscores and digits. -/
  | word
  | number
  /-- A single mark of the given kind. -/
  | mark (k : Kind)
  | stray
  | foreign
deriving DecidableEq, Repr

def LexemeClass.ofByte (b : UInt8) : LexemeClass :=
  if isWordStart b then word
  else if isDigit b then number
  else match Kind.ofMark? (Char.ofUInt8 b) with
    | some k => mark k
    | none => if b < 0x80 then stray else foreign

/-- The end of the longest lexeme of the class that begins at `lo`. -/
def LexemeClass.lexemeEnd (s : String) (lo : Nat) : LexemeClass → Nat
  | word => Source.runEnd isWordByte s lo
  | number => Source.runEnd isDigit s lo
  | mark _ | stray => lo + 1
  | foreign => lo + (Source.char? s lo).elim 1 Char.utf8Size

def LexemeClass.kind (text : String) : LexemeClass → Kind
  | word => Kind.ofWord text
  | number => .number
  | mark k => k
  | stray | foreign => .unknown

theorem LexemeClass.lt_lexemeEnd {s : String} {lo : Nat} {b : UInt8}
    (h : Source.byte? s lo = some b) : lo < (ofByte b).lexemeEnd s lo := by
  simp only [ofByte]
  split
  · next hw => exact Source.lt_runEnd h (by simp [isWordByte, hw])
  · split
    · next hd => exact Source.lt_runEnd h hd
    · split
      · exact Nat.lt_succ_self lo
      · split
        · exact Nat.lt_succ_self lo
        · simp only [lexemeEnd]
          cases Source.char? s lo with
          | none => simp
          | some c => simp [Char.utf8Size_pos]

structure Cursor where
  source : String
  /-- Where the last scan found its lexeme. -/
  start : Nat := 0
  /-- The offset of the next byte to read. -/
  pos : Nat := 0
deriving DecidableEq, Repr

namespace Cursor

/-- Scans the next token. At the end of the source every scan gives the end token. -/
def scan (c : Cursor) : Token × Cursor :=
  let lo := Source.runEnd isBlank c.source c.pos
  match Source.byte? c.source lo with
  | none => (.eof c.source.utf8ByteSize, { c with start := lo, pos := lo })
  | some b =>
    let lexeme := LexemeClass.ofByte b
    let hi := lexeme.lexemeEnd c.source lo
    -- the ends are boundaries at every cursor a scan can reach, so the slice exists
    let text := (Source.slice? c.source lo hi).getD ""
    (⟨lexeme.kind text, text, ⟨lo, hi⟩⟩, { c with start := lo, pos := hi })

def remaining (c : Cursor) : Nat := c.source.utf8ByteSize - c.pos

theorem remaining_scan_lt {c : Cursor} (h : c.scan.1.isEof = false) :
    c.scan.2.remaining < c.remaining := by
  have hle := Source.le_runEnd isBlank c.source c.pos
  revert h
  simp only [scan]
  split
  · intro h
    cases h
  · next b hb =>
    intro _
    have hlt := LexemeClass.lt_lexemeEnd hb
    have hend := Source.lt_utf8ByteSize_of_byte? hb
    simp only [remaining]
    omega

end Cursor

end TokenStream
