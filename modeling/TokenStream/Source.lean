/-!
# Sources by byte offset

A source is a text that is read through the offsets of its UTF-8 bytes. An offset is a boundary
when it does not fall inside a character; a slice exists only between boundaries.
-/

namespace TokenStream.Source

/-- The offset does not fall inside a character and lies at most at the end. -/
def IsBoundary (s : String) (i : Nat) : Prop := String.Pos.Raw.IsValid s ⟨i⟩

def byte? (s : String) (i : Nat) : Option UInt8 :=
  if h : i < s.utf8ByteSize then some (s.getUTF8Byte ⟨i⟩ h) else none

/-- The byte at an offset, or zero past the end. A source can hold zeros as well. -/
def peek (s : String) (i : Nat) : UInt8 := (byte? s i).getD 0

def char? (s : String) (i : Nat) : Option Char := (s.pos? ⟨i⟩).bind (·.get?)

def slice? (s : String) (lo hi : Nat) : Option String :=
  match s.pos? ⟨lo⟩, s.pos? ⟨hi⟩ with
  | some b, some e => if b ≤ e then some (s.extract b e) else none
  | _, _ => none

theorem lt_utf8ByteSize_of_byte? {s : String} {i : Nat} {b : UInt8} (h : byte? s i = some b) :
    i < s.utf8ByteSize := by
  simp only [byte?] at h
  split at h
  · assumption
  · cases h

theorem byte?_eq_none_iff {s : String} {i : Nat} : byte? s i = none ↔ s.utf8ByteSize ≤ i := by
  simp [byte?]

theorem peek_of_byte? {s : String} {i : Nat} {b : UInt8} (h : byte? s i = some b) :
    peek s i = b := by
  rw [peek, h, Option.getD_some]

theorem peek_of_byte?_eq_none {s : String} {i : Nat} (h : byte? s i = none) : peek s i = 0 := by
  rw [peek, h, Option.getD_none]

/-- What is seen of a class without zero is a byte of the source. -/
theorem byte?_of_peek {p : UInt8 → Bool} {s : String} {i : Nat} (hp : p 0 = false)
    (h : p (peek s i) = true) : byte? s i = some (peek s i) := by
  cases hb : byte? s i with
  | none =>
      rw [peek_of_byte?_eq_none hb, hp] at h
      cases h
  | some b => rw [peek_of_byte? hb]

/-- The first offset from `i` on whose byte falls outside the class `p`, or the end. -/
def runEnd (p : UInt8 → Bool) (s : String) (i : Nat) : Nat :=
  match h : byte? s i with
  | some b => if p b then runEnd p s (i + 1) else i
  | none => i
termination_by s.utf8ByteSize - i
decreasing_by
  have := lt_utf8ByteSize_of_byte? h
  omega

theorem le_runEnd (p : UInt8 → Bool) (s : String) (i : Nat) : i ≤ runEnd p s i := by
  fun_induction runEnd p s i with
  | case1 => omega
  | case2 => exact Nat.le_refl _
  | case3 => exact Nat.le_refl _

theorem lt_runEnd {p : UInt8 → Bool} {s : String} {i : Nat} {b : UInt8}
    (h : byte? s i = some b) (hb : p b = true) : i < runEnd p s i := by
  rw [runEnd]
  split
  · next b' h' =>
    rw [h, Option.some.injEq] at h'
    subst h'
    rw [if_pos hb]
    exact le_runEnd p s (i + 1)
  · next h' => rw [h] at h'; cases h'

/-- Induction over the loop that moves on as long as it sees a byte of the class `p`. If zero is not
in the class, the loop ends with the run and moves only over bytes of the source, since past the end
it sees a zero. -/
theorem runEnd_induction {p : UInt8 → Bool} (hp : p 0 = false) {s : String}
    {motive : Nat → Nat → Prop} (stop : ∀ i, p (peek s i) = false → motive i i)
    (move : ∀ i j, p (peek s i) = true → i < s.utf8ByteSize → motive (i + 1) j → motive i j)
    (i : Nat) : motive i (runEnd p s i) := by
  fun_induction runEnd p s i with
  | case1 i b hb hpb ih =>
      rw [← peek_of_byte? hb] at hpb
      exact move i _ hpb (lt_utf8ByteSize_of_byte? hb) ih
  | case2 i b hb hpb =>
      rw [← peek_of_byte? hb] at hpb
      exact stop i (Bool.eq_false_iff.mpr hpb)
  | case3 i hb =>
      refine stop i ?_
      rw [peek_of_byte?_eq_none hb]
      exact hp

end TokenStream.Source
