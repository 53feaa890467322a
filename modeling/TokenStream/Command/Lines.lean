/-!
# Lines of bytes

A line ends after a line feed. What follows the last line feed is a line too unless it is empty, so
the lines joined give back the bytes.
-/

namespace TokenStream.Command

def lineFeed : UInt8 := 0x0a

/-- Puts a byte in front of some lines: it begins the first one, unless it is itself an end. -/
def consLine (b : UInt8) : List (List UInt8) → List (List UInt8)
  | [] => [[b]]
  | line :: lines => if b = lineFeed then [b] :: line :: lines else (b :: line) :: lines

def splitLines (bytes : List UInt8) : List (List UInt8) := bytes.foldr consLine []

theorem flatten_consLine (b : UInt8) (lines : List (List UInt8)) :
    (consLine b lines).flatten = b :: lines.flatten := by
  cases lines with
  | nil => rfl
  | cons line lines => simp only [consLine]; split <;> simp

theorem flatten_splitLines (bytes : List UInt8) : (splitLines bytes).flatten = bytes := by
  induction bytes with
  | nil => rfl
  | cons b bytes ih =>
    rw [splitLines, List.foldr_cons, flatten_consLine]
    exact congrArg (b :: ·) ih

end TokenStream.Command
