import TokenStream.Proofs.Class

/-!
# Lexemes

The grammar of lexemes, written over characters: words, numerals, single marks, and single
characters of no other use. A word or a numeral may be continued by the text after it; a lexeme is
maximal in front of a text that does not. The byte that a scan stops at settles the class, and the
class the end and the kind, of the maximal lexeme that begins there.
-/

namespace TokenStream

open Source

/-! ## The grammar -/

/-- A text of blanks only, possibly empty. -/
def IsBlankText (w : String) : Prop := ∀ c ∈ w.toList, c.isWhitespace = true

/-- A letter or underscore, then letters, digits and underscores. -/
def IsWord (x : String) : Prop :=
  ∃ c cs, x.toList = c :: cs ∧ isWordHead c = true ∧ ∀ d ∈ cs, isWordChar d = true

/-- Digits, at least one. -/
def IsNumeral (x : String) : Prop := x ≠ "" ∧ ∀ c ∈ x.toList, c.isDigit = true

/-- What may stand as the kind and the text of a token. Words have their kind by lookup; the last
constructor is for what has no other use. -/
inductive IsLexeme : Kind → String → Prop
  | word {x : String} : IsWord x → IsLexeme (Kind.ofWord x) x
  | number {x : String} : IsNumeral x → IsLexeme .number x
  | mark {c : Char} {k : Kind} : Kind.ofMark? c = some k → IsLexeme k (String.singleton c)
  | other {c : Char} : c.isWhitespace = false → isWordChar c = false → Kind.ofMark? c = none →
      IsLexeme .unknown (String.singleton c)

/-- The text `t` begins with a character that the lexeme `x` would take in. -/
def Continues (x t : String) : Prop :=
  ∃ c, t.toList.head? = some c ∧
    (IsWord x ∧ isWordChar c = true ∨ IsNumeral x ∧ c.isDigit = true)

/-! ## Kinds -/

def Kind.IsWordKind (k : Kind) : Prop := k = .identifier ∨ k.isKeyword = true

theorem Kind.isWordKind_ofWord (x : String) : (Kind.ofWord x).IsWordKind := by
  unfold Kind.ofWord Kind.IsWordKind
  split <;> simp [Kind.isKeyword]

theorem Kind.IsWordKind.ne {k : Kind} (h : k.IsWordKind) :
    k ≠ .eof ∧ k ≠ .number ∧ k ≠ .unknown := by
  obtain rfl | h := h
  · decide
  · cases k with
    | keyword w => simp
    | _ => cases h

theorem Kind.of_ofMark? {c : Char} {k : Kind} (h : Kind.ofMark? c = some k) :
    (c.toNat < 0x80 ∧ isWordChar c = false ∧ c.isWhitespace = false) ∧
      k ≠ .eof ∧ k ≠ .number ∧ ¬k.IsWordKind := by
  unfold Kind.IsWordKind
  simp only [Kind.ofMark?] at h
  split at h <;> simp only [Option.some.injEq, reduceCtorEq] at h <;> subst h <;> decide

/-! ## What a lexeme is made of -/

theorem IsBlankText.append {w v : String} (hw : IsBlankText w) (hv : IsBlankText v) :
    IsBlankText (w ++ v) := by
  intro c hc
  rw [String.toList_append] at hc
  rcases List.mem_append.mp hc with hc | hc
  · exact hw c hc
  · exact hv c hc

theorem isBlankText_empty : IsBlankText "" := by
  intro c hc
  simp at hc

theorem IsWord.isWordChar {x : String} (h : IsWord x) : ∀ c ∈ x.toList, isWordChar c = true := by
  obtain ⟨c, cs, hx, hc, hcs⟩ := h
  intro d hd
  rw [hx] at hd
  rcases List.mem_cons.mp hd with rfl | hd
  · exact isWordChar_of_isWordHead hc
  · exact hcs d hd

theorem IsWord.not_isNumeral {x : String} (h : IsWord x) : ¬IsNumeral x := by
  obtain ⟨c, cs, hx, hc, -⟩ := h
  intro h
  obtain ⟨-, hd⟩ := h
  have := hd c (by simp [hx])
  rw [isDigit_eq_false_of_isWordHead hc] at this
  cases this

theorem IsNumeral.exists_cons {x : String} (h : IsNumeral x) :
    ∃ c cs, x.toList = c :: cs ∧ c.isDigit = true := by
  obtain ⟨hne, hd⟩ := h
  cases hx : x.toList with
  | nil => exact absurd (String.toList_eq_nil_iff.mp hx) hne
  | cons c cs => exact ⟨c, cs, rfl, hd c (by simp [hx])⟩

theorem not_isWord_singleton {c : Char} (h : isWordChar c = false) :
    ¬IsWord (String.singleton c) := by
  intro hw
  have := hw.isWordChar c (by simp)
  rw [h] at this
  cases this

theorem not_isNumeral_singleton {c : Char} (h : isWordChar c = false) :
    ¬IsNumeral (String.singleton c) := by
  intro h
  obtain ⟨-, hd⟩ := h
  have := isWordChar_of_isDigit (hd c (by simp))
  rw [h] at this
  cases this

namespace IsLexeme

variable {k : Kind} {x : String}

theorem isWhitespace_eq_false (h : IsLexeme k x) : ∀ c ∈ x.toList, c.isWhitespace = false := by
  intro c hc
  have of_word : TokenStream.isWordChar c = true → c.isWhitespace = false := by
    intro hw
    refine Bool.eq_false_iff.mpr fun hb => ?_
    rw [isWordChar_eq_false_of_isWhitespace hb] at hw
    cases hw
  cases h with
  | word hw => exact of_word (hw.isWordChar c hc)
  | number hn => exact of_word (isWordChar_of_isDigit (hn.2 c hc))
  | mark hm =>
      rw [String.toList_singleton, List.mem_singleton] at hc
      exact hc ▸ (Kind.of_ofMark? hm).1.2.2
  | other hb _ _ =>
      rw [String.toList_singleton, List.mem_singleton] at hc
      exact hc ▸ hb

theorem exists_cons (h : IsLexeme k x) : ∃ c cs, x.toList = c :: cs := by
  cases h with
  | word hw =>
      obtain ⟨c, cs, hx, -⟩ := hw
      exact ⟨c, cs, hx⟩
  | number hn =>
      obtain ⟨c, cs, hx, -⟩ := hn.exists_cons
      exact ⟨c, cs, hx⟩
  | mark _ => exact ⟨_, [], String.toList_singleton _⟩
  | other _ _ _ => exact ⟨_, [], String.toList_singleton _⟩

theorem utf8ByteSize_pos (h : IsLexeme k x) : 0 < x.utf8ByteSize := by
  obtain ⟨c, cs, hx⟩ := h.exists_cons
  rw [eq_singleton_append hx, String.utf8ByteSize_append, String.utf8ByteSize_singleton]
  exact Nat.add_pos_left c.utf8Size_pos _

theorem isWord_iff (h : IsLexeme k x) : IsWord x ↔ k.IsWordKind := by
  cases h with
  | word hw => exact iff_of_true hw (Kind.isWordKind_ofWord x)
  | number hn => exact iff_of_false (fun hw => hw.not_isNumeral hn) fun hk => hk.ne.2.1 rfl
  | mark hm =>
      have hk := Kind.of_ofMark? hm
      exact iff_of_false (not_isWord_singleton hk.1.2.1) hk.2.2.2
  | other _ hw _ => exact iff_of_false (not_isWord_singleton hw) fun hk => hk.ne.2.2 rfl

theorem isNumeral_iff (h : IsLexeme k x) : IsNumeral x ↔ k = .number := by
  cases h with
  | word hw => exact iff_of_false hw.not_isNumeral (Kind.isWordKind_ofWord x).ne.2.1
  | number hn => exact iff_of_true hn rfl
  | mark hm =>
      have hk := Kind.of_ofMark? hm
      exact iff_of_false (not_isNumeral_singleton hk.1.2.1) hk.2.2.1
  | other _ hw _ => exact iff_of_false (not_isNumeral_singleton hw) (by simp)

theorem kind_ne_eof (h : IsLexeme k x) : k ≠ .eof := by
  cases h with
  | word hw => exact (Kind.isWordKind_ofWord x).ne.1
  | number hn => simp
  | mark hm => exact (Kind.of_ofMark? hm).2.1
  | other _ _ _ => simp

theorem isWordChar_iff (h : IsLexeme k x) {c : Char} {cs : List Char} (hx : x.toList = c :: cs) :
    TokenStream.isWordChar c = true ↔ IsWord x ∨ IsNumeral x := by
  have hc : c ∈ x.toList := by simp [hx]
  cases h with
  | word hw => exact iff_of_true (hw.isWordChar c hc) (.inl hw)
  | number hn => exact iff_of_true (isWordChar_of_isDigit (hn.2 c hc)) (.inr hn)
  | mark hm =>
      rw [String.toList_singleton, List.mem_singleton] at hc
      have hw := (Kind.of_ofMark? hm).1.2.1
      rw [hc, hw]
      simp [not_isWord_singleton hw, not_isNumeral_singleton hw]
  | other _ hw _ =>
      rw [String.toList_singleton, List.mem_singleton] at hc
      rw [hc, hw]
      simp [not_isWord_singleton hw, not_isNumeral_singleton hw]

theorem isDigit_iff (h : IsLexeme k x) {c : Char} {cs : List Char} (hx : x.toList = c :: cs) :
    c.isDigit = true ↔ IsNumeral x := by
  have hc : c ∈ x.toList := by simp [hx]
  constructor
  · intro hd
    rcases (h.isWordChar_iff hx).mp (isWordChar_of_isDigit hd) with hw | hn
    · obtain ⟨d, ds, hx', hh, -⟩ := hw
      rw [hx, List.cons.injEq] at hx'
      rw [hx'.1, isDigit_eq_false_of_isWordHead hh] at hd
      cases hd
    · exact hn
  · intro hn
    exact hn.2 c hc

end IsLexeme

/-! ## Continuation -/

/-- The first byte decides, so a byte of lookahead is enough. -/
theorem continues_iff_byte? {x t : String} : Continues x t ↔
    (IsWord x ∧ ∃ b, byte? t 0 = some b ∧ isWordByte b = true) ∨
      (IsNumeral x ∧ ∃ b, byte? t 0 = some b ∧ isDigit b = true) := by
  rw [byteClass_isWordByte.exists_byte?_iff, byteClass_isDigit.exists_byte?_iff]
  constructor
  · intro h
    obtain ⟨c, hc, ⟨hx, h⟩ | ⟨hx, h⟩⟩ := h
    · exact .inl ⟨hx, c, hc, h⟩
    · exact .inr ⟨hx, c, hc, h⟩
  · intro h
    rcases h with ⟨hx, c, hc, h⟩ | ⟨hx, c, hc, h⟩
    · exact ⟨c, hc, .inl ⟨hx, h⟩⟩
    · exact ⟨c, hc, .inr ⟨hx, h⟩⟩

theorem not_continues_empty (x : String) : ¬Continues x "" := by
  intro h
  obtain ⟨c, hc, -⟩ := h
  simp at hc

theorem continues_append_iff {x t : String} (ht : t ≠ "") (u : String) :
    Continues x (t ++ u) ↔ Continues x t := by
  cases h : t.toList with
  | nil => exact absurd (String.toList_eq_nil_iff.mp h) ht
  | cons c cs => simp [Continues, h]

theorem not_continues_of_isWordChar_eq_false {x t : String} {c : Char} {cs : List Char}
    (ht : t.toList = c :: cs) (hc : isWordChar c = false) : ¬Continues x t := by
  intro hx
  obtain ⟨d, hd, h⟩ := hx
  rw [ht, List.head?_cons, Option.some.injEq] at hd
  subst hd
  rcases h with ⟨-, h⟩ | ⟨-, h⟩
  · rw [hc] at h
    cases h
  · rw [isWordChar_of_isDigit h] at hc
    cases hc

theorem not_continues_of_isWhitespace {x t : String} {c : Char} {cs : List Char}
    (ht : t.toList = c :: cs) (hc : c.isWhitespace = true) : ¬Continues x t :=
  not_continues_of_isWordChar_eq_false ht (isWordChar_eq_false_of_isWhitespace hc)

/-- A single character that is in no word is a lexeme that nothing continues. -/
theorem not_continues_singleton {c : Char} (hc : isWordChar c = false) (t : String) :
    ¬Continues (String.singleton c) t := by
  intro h
  obtain ⟨d, -, ⟨h, -⟩ | ⟨h, -⟩⟩ := h
  · exact not_isWord_singleton hc h
  · exact not_isNumeral_singleton hc h

end TokenStream
