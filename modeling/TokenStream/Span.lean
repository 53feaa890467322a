/-!
# Spans

A span is a half-open range of byte offsets of a source. Nothing orders its ends: a span written
by hand may end before it starts, and then it has no length.
-/

namespace TokenStream

/-- A range of byte offsets, `lo` included and `hi` excluded. -/
structure Span where
  lo : Nat
  hi : Nat
deriving DecidableEq, Repr, Inhabited

inductive SpanError where
  | reversed
deriving DecidableEq, Repr

def SpanError.message : SpanError → String
  | .reversed => "attempt to subtract with overflow"

namespace Span

def point (pos : Nat) : Span := ⟨pos, pos⟩

def length (s : Span) : Except SpanError Nat :=
  if s.hi < s.lo then .error .reversed else .ok (s.hi - s.lo)

/-- A span is empty when its ends agree; a reversed span is not. -/
def isEmpty (s : Span) : Bool := s.lo == s.hi

/-- The span as it lies in a text that has `offset` more bytes in front. -/
def shift (offset : Nat) (s : Span) : Span := ⟨s.lo + offset, s.hi + offset⟩

def describe (s : Span) : String :=
  "Span \x7b lo: " ++ toString s.lo ++ ", hi: " ++ toString s.hi ++ " \x7d"

theorem length_eq_ok {s : Span} {n : Nat} : s.length = .ok n ↔ s.lo + n = s.hi := by
  simp only [length]
  split
  · simp; omega
  · simp; omega

end Span

end TokenStream
