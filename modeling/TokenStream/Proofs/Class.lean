import TokenStream.Cursor
import TokenStream.Proofs.Source

/-!
# Classes of characters and of bytes

A scan tests bytes, while lexemes are made of characters. Each class of bytes that it tests is the
class of characters of the same name: all bytes of a character fall in the one exactly when the
character falls in the other. This holds since the classes are ASCII, and no byte of a character
beyond ASCII is.
-/

namespace TokenStream

open Source

/-! ## Classes of characters -/

/-- What may begin a word: the ASCII letters and the underscore. -/
def isWordHead (c : Char) : Bool := c.isAlpha || c == '_'

/-- What may follow in a word: the ASCII letters and digits and the underscore. -/
def isWordChar (c : Char) : Bool := c.isAlphanum || c == '_'

theorem isWordChar_eq (c : Char) : isWordChar c = (isWordHead c || c.isDigit) := by
  simp [isWordChar, isWordHead, Char.isAlphanum, Bool.or_right_comm]

theorem isWordChar_of_isWordHead {c : Char} (h : isWordHead c = true) : isWordChar c = true := by
  rw [isWordChar_eq, h, Bool.true_or]

theorem isWordChar_of_isDigit {c : Char} (h : c.isDigit = true) : isWordChar c = true := by
  rw [isWordChar_eq, h, Bool.or_true]

theorem isWordHead_iff_toNat {c : Char} : isWordHead c = true ↔
    (0x41 ≤ c.toNat ∧ c.toNat ≤ 0x5a) ∨ (0x61 ≤ c.toNat ∧ c.toNat ≤ 0x7a) ∨ c = '_' := by
  have h : isWordHead c = (decide (c.val ≥ 0x41 ∧ c.val ≤ 0x5a) ||
      (decide (c.val ≥ 0x61) && decide (c.val ≤ 0x7a)) || c == '_') := rfl
  rw [h]
  simp [UInt32.le_iff_toNat_le, or_assoc]

theorem isDigit_eq_false_of_isWordHead {c : Char} (h : isWordHead c = true) :
    c.isDigit = false := by
  simp only [Char.isDigit, Bool.and_eq_false_iff, decide_eq_false_iff_not]
  rcases isWordHead_iff_toNat.mp h with h | h | rfl
  · simp [UInt32.le_iff_toNat_le]
    omega
  · simp [UInt32.le_iff_toNat_le]
    omega
  · decide

theorem isWordHead_eq_false_of_isDigit {c : Char} (h : c.isDigit = true) :
    isWordHead c = false := by
  refine Bool.eq_false_iff.mpr fun hw => ?_
  rw [isDigit_eq_false_of_isWordHead hw] at h
  cases h

theorem isWordChar_eq_false_of_isWhitespace {c : Char} (h : c.isWhitespace = true) :
    isWordChar c = false := by
  simp only [Char.isWhitespace, Bool.or_eq_true, decide_eq_true_eq] at h
  rcases h with ((rfl | rfl) | rfl) | rfl <;> decide

/-! ## Classes of bytes -/

theorem mem_utf8EncodeChar {c : Char} {b : UInt8} (h : b ∈ String.utf8EncodeChar c) :
    (c.toNat < 0x80 ∧ b = UInt8.ofNat c.toNat) ∨ (0x80 ≤ c.toNat ∧ 0x80 ≤ b) := by
  have hv : c.val.toNat = c.toNat := rfl
  simp only [String.utf8EncodeChar, hv] at h
  split at h
  · left
    exact ⟨by omega, List.mem_singleton.mp h⟩
  · right
    refine ⟨by omega, ?_⟩
    simp only [UInt8.le_iff_toNat_le]
    split at h
    · simp only [List.mem_cons, List.not_mem_nil, or_false] at h
      rcases h with rfl | rfl <;> simp <;> omega
    · split at h
      · simp only [List.mem_cons, List.not_mem_nil, or_false] at h
        rcases h with rfl | rfl | rfl <;> simp <;> omega
      · simp only [List.mem_cons, List.not_mem_nil, or_false] at h
        rcases h with rfl | rfl | rfl | rfl <;> simp <;> omega

theorem utf8EncodeChar_ne_nil (c : Char) : String.utf8EncodeChar c ≠ [] := by
  intro h
  have hl := String.length_utf8EncodeChar c
  rw [h, List.length_nil] at hl
  exact absurd c.utf8Size_pos (by omega)

/-- Each byte of a character falls in the class of bytes exactly when the character falls in the
class of characters. -/
def ByteClass (p : UInt8 → Bool) (q : Char → Bool) : Prop :=
  ∀ c, ∀ b ∈ String.utf8EncodeChar c, p b = q c

theorem ByteClass.of_ascii {p : UInt8 → Bool} {q : Char → Bool}
    (h : ∀ n < 0x80, p (UInt8.ofNat n) = q (Char.ofNat n))
    (hp : ∀ b, p b = true → b < 0x80) (hq : ∀ c, q c = true → c.toNat < 0x80) :
    ByteClass p q := by
  intro c b hb
  rcases mem_utf8EncodeChar hb with ⟨hc, rfl⟩ | ⟨hc, hb⟩
  · rw [h _ hc, Char.ofNat_toNat]
  · have hpb : p b = false := Bool.eq_false_iff.mpr fun h => UInt8.not_lt.mpr hb (hp b h)
    have hqc : q c = false := Bool.eq_false_iff.mpr fun h => Nat.not_lt.mpr hc (hq c h)
    rw [hpb, hqc]

theorem byteClass_isBlank : ByteClass isBlank Char.isWhitespace := by
  refine .of_ascii (by decide) ?_ ?_
  · intro b hb
    simp only [isBlank, Bool.or_eq_true, beq_iff_eq] at hb
    rcases hb with ((rfl | rfl) | rfl) | rfl <;> decide
  · intro c hc
    simp only [Char.isWhitespace, Bool.or_eq_true, decide_eq_true_eq] at hc
    rcases hc with ((rfl | rfl) | rfl) | rfl <;> decide

theorem byteClass_isDigit : ByteClass isDigit Char.isDigit := by
  refine .of_ascii (by decide) ?_ ?_
  · intro b hb
    simp [isDigit, UInt8.le_iff_toNat_le, UInt8.lt_iff_toNat_lt] at hb ⊢
    omega
  · intro c hc
    simp [Char.isDigit, UInt32.le_iff_toNat_le] at hc ⊢
    omega

theorem byteClass_isWordStart : ByteClass isWordStart isWordHead := by
  refine .of_ascii (by decide) ?_ ?_
  · intro b hb
    simp [isWordStart, UInt8.le_iff_toNat_le, UInt8.lt_iff_toNat_lt] at hb ⊢
    rcases hb with (hb | hb) | rfl
    · omega
    · omega
    · decide
  · intro c hc
    rcases isWordHead_iff_toNat.mp hc with hc | hc | rfl
    · omega
    · omega
    · decide

theorem byteClass_isWordByte : ByteClass isWordByte isWordChar := by
  intro c b hb
  rw [isWordByte, isWordChar_eq, byteClass_isWordStart c b hb, byteClass_isDigit c b hb]

theorem ByteClass.forall_bytes_iff {p : UInt8 → Bool} {q : Char → Bool} (h : ByteClass p q)
    {s : String} {v : Bool} : (∀ b ∈ bytes s, p b = v) ↔ ∀ c ∈ s.toList, q c = v := by
  simp only [bytes, List.mem_flatMap]
  constructor
  · intro hb c hc
    obtain ⟨b, hbc⟩ := List.exists_mem_of_ne_nil _ (utf8EncodeChar_ne_nil c)
    rw [← h c b hbc]
    exact hb b ⟨c, hc, hbc⟩
  · intro hc b hex
    obtain ⟨c, hcs, hbc⟩ := hex
    rw [h c b hbc]
    exact hc c hcs

theorem exists_byte?_zero (c : Char) (t : String) :
    ∃ b ∈ String.utf8EncodeChar c, byte? (String.singleton c ++ t) 0 = some b := by
  rw [byte?_eq_getElem?, bytes_append, bytes_singleton]
  cases hb : String.utf8EncodeChar c with
  | nil => exact absurd hb (utf8EncodeChar_ne_nil c)
  | cons b bs => exact ⟨b, List.mem_cons_self, rfl⟩

theorem eq_singleton_append {x : String} {c : Char} {cs : List Char} (h : x.toList = c :: cs) :
    x = String.singleton c ++ String.ofList cs := by
  rw [← String.toList_inj, h]
  simp

theorem toList_singleton_append (c : Char) (t : String) :
    (String.singleton c ++ t).toList = c :: t.toList := by
  rw [String.toList_append, String.toList_singleton, List.singleton_append]

theorem ByteClass.exists_byte?_iff {p : UInt8 → Bool} {q : Char → Bool} (h : ByteClass p q)
    {t : String} : (∃ b, byte? t 0 = some b ∧ p b = true) ↔
      ∃ c, t.toList.head? = some c ∧ q c = true := by
  cases hc : t.toList with
  | nil =>
      rw [String.toList_eq_nil_iff] at hc
      subst hc
      simp [byte?]
  | cons c cs =>
      obtain ⟨b, hbc, hb⟩ := exists_byte?_zero c (String.ofList cs)
      rw [eq_singleton_append hc, hb]
      simp [h c b hbc]

end TokenStream
