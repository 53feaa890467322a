import TokenStream.Text.Quoted

/-!
# Reading quoted texts

A quoted text is read character by character: what stands for one is found without looking at what
follows it, so a text is found again in whatever stands behind its opening quote, with the rest.
-/

namespace TokenStream.Quoted

/-! ## Code points -/

def digitValue (c : Char) : Nat :=
  if c.isDigit then c.toNat - '0'.toNat else c.toNat - 'a'.toNat + 10

/-- The number that hexadecimal digits in lower case stand for. -/
def ofHex (cs : List Char) : Nat := cs.foldl (fun n c => 16 * n + digitValue c) 0

theorem digitValue_digitChar {n : Nat} (h : n < 16) : digitValue n.digitChar = n := by
  decide +revert

theorem digitChar_ne_brace {n : Nat} (h : n < 16) : n.digitChar ≠ '}' ∧ ' ' < n.digitChar := by
  decide +revert

theorem ofHex_toDigits (n : Nat) : ofHex (Nat.toDigits 16 n) = n := by
  induction n using Nat.base_induction 16 (by decide) with
  | single m hm =>
      rw [Nat.toDigits_of_lt_base hm]
      simp [ofHex, digitValue_digitChar hm]
  | digit m k hk hm ih =>
      rw [← Nat.toDigits_append_toDigits (by decide) hm hk, Nat.toDigits_of_lt_base hk]
      simp only [ofHex] at ih
      simp [ofHex, ih, digitValue_digitChar hk]

theorem ne_brace_of_mem_toDigits {n : Nat} {c : Char} (h : c ∈ Nat.toDigits 16 n) :
    c ≠ '}' ∧ ' ' < c := by
  induction n using Nat.base_induction 16 (by decide) with
  | single m hm =>
      rw [Nat.toDigits_of_lt_base hm, List.mem_singleton] at h
      exact h ▸ digitChar_ne_brace hm
  | digit m k hk hm ih =>
      rw [← Nat.toDigits_append_toDigits (by decide) hm hk, Nat.toDigits_of_lt_base hk,
        List.mem_append, List.mem_singleton] at h
      rcases h with h | rfl
      · exact ih h
      · exact digitChar_ne_brace hk

/-! ## One character -/

/-- The character that a letter behind a backslash stands for. -/
def ofLetter? : Char → Option Char
  | '"' => some '"'
  | '\\' => some '\\'
  | '0' => some '\x00'
  | 't' => some '\t'
  | 'r' => some '\r'
  | 'n' => some '\n'
  | _ => none

/-- Reads what stands behind a backslash. -/
def readEscape? : List Char → Option (Char × List Char)
  | 'u' :: '{' :: cs =>
    some (Char.ofNat (ofHex (cs.takeWhile (· ≠ '}'))), (cs.dropWhile (· ≠ '}')).drop 1)
  | l :: cs => (ofLetter? l).map (·, cs)
  | [] => none

/-- Reads one character, unless the closing quote comes first. -/
def readChar? : List Char → Option (Char × List Char)
  | [] => none
  | c :: cs => if c = '"' then none else if c = '\\' then readEscape? cs else some (c, cs)

theorem letter?_eq_some {c l : Char} (h : letter? c = some l) :
    ofLetter? l = some c ∧ l ≠ 'u' ∧ ' ' < l := by
  simp only [letter?] at h
  split at h <;> simp only [Option.some.injEq, reduceCtorEq] at h <;> subst h <;> decide

theorem readEscape?_letter {c l : Char} (h : letter? c = some l) (rest : List Char) :
    readEscape? (l :: rest) = some (c, rest) := by
  obtain ⟨hl, hu, -⟩ := letter?_eq_some h
  unfold readEscape?
  split
  · next heq =>
    rw [List.cons.injEq] at heq
    exact absurd heq.1 hu
  · next heq =>
    rw [List.cons.injEq] at heq
    rw [← heq.1, hl, heq.2]
    rfl
  · next heq => cases heq

theorem readEscape?_code (c : Char) (rest : List Char) :
    readEscape? ('u' :: '{' :: (Nat.toDigits 16 c.toNat ++ '}' :: rest)) = some (c, rest) := by
  have hne : ∀ d ∈ Nat.toDigits 16 c.toNat, decide (d ≠ '}') = true := by
    intro d hd
    exact decide_eq_true (ne_brace_of_mem_toDigits hd).1
  simp only [readEscape?]
  rw [List.takeWhile_append_of_pos hne, List.dropWhile_append_of_pos hne]
  simp [ofHex_toDigits]

/-- What stands for a character is read as it, whatever follows. -/
theorem readChar?_escape (c : Char) (rest : List Char) :
    readChar? (escape c ++ rest) = some (c, rest) := by
  unfold escape
  split
  · next l hl => exact readEscape?_letter hl rest
  · next hl =>
    split
    · have := readEscape?_code c rest
      simpa [readChar?] using this
    · have hq : c ≠ '"' := by rintro rfl; cases hl
      have hb : c ≠ '\\' := by rintro rfl; cases hl
      simp [readChar?, hq, hb]

/-! ## Whole texts -/

theorem length_readChar?_lt {cs rest : List Char} {c : Char} (h : readChar? cs = some (c, rest)) :
    rest.length < cs.length := by
  cases cs with
  | nil => cases h
  | cons d cs =>
      simp only [readChar?] at h
      split at h
      · cases h
      · split at h
        · unfold readEscape? at h
          split at h
          · next ds =>
            have hdrop := (List.dropWhile_sublist (· ≠ '}') (l := ds)).length_le
            simp only [Option.some.injEq, Prod.mk.injEq] at h
            simp only [← h.2, List.length_drop, List.length_cons]
            omega
          · obtain ⟨_, -, h⟩ := Option.map_eq_some_iff.mp h
            rw [Prod.mk.injEq] at h
            simp only [← h.2, List.length_cons]
            omega
          · cases h
        · simp only [Option.some.injEq, Prod.mk.injEq] at h
          simp only [← h.2, List.length_cons]
          omega

/-- Reads up to the closing quote, and gives what follows it. -/
def read? (cs : List Char) : Option (List Char × List Char) :=
  match h : readChar? cs with
  | some (c, rest) =>
    have := length_readChar?_lt h
    (read? rest).map fun r => (c :: r.1, r.2)
  | none => if cs.head? = some '"' then some ([], cs.drop 1) else none
termination_by cs.length

theorem read?_quote (rest : List Char) : read? ('"' :: rest) = some ([], rest) := by
  rw [read?]
  rfl

theorem read?_escape (c : Char) (cs : List Char) :
    read? (escape c ++ cs) = (read? cs).map fun r => (c :: r.1, r.2) := by
  rw [read?]
  split
  · next d rest h =>
    rw [readChar?_escape, Option.some.injEq, Prod.mk.injEq] at h
    obtain ⟨rfl, rfl⟩ := h
    rfl
  · next h =>
    rw [readChar?_escape] at h
    cases h

/-- A quoted text is found again behind its opening quote, whatever follows it. -/
theorem read?_encode (cs rest : List Char) : read? (encode cs ++ '"' :: rest) = some (cs, rest) := by
  induction cs with
  | nil => exact read?_quote rest
  | cons c cs ih => rw [encode_cons, List.append_assoc, read?_escape, ih, Option.map_some]

/-! ## Line feeds and spaces -/

/-- What stands for a character is that character, not escaped, or comes after the space. -/
theorem mem_escape {c d : Char} (h : d ∈ escape c) : d = c ∧ letter? c = none ∨ ' ' < d := by
  unfold escape at h
  split at h
  · next l hl =>
    simp only [List.mem_cons, List.not_mem_nil, or_false] at h
    rcases h with rfl | rfl
    · exact .inr (by decide)
    · exact .inr (letter?_eq_some hl).2.2
  · next hl =>
    split at h
    · right
      simp only [List.mem_append, List.mem_cons, List.not_mem_nil, or_false] at h
      rcases h with (h | h) | rfl
      · rcases h with rfl | rfl | rfl <;> decide
      · exact (ne_brace_of_mem_toDigits h).2
      · decide
    · exact .inl ⟨List.mem_singleton.mp h, hl⟩

theorem newline_not_mem_encode (cs : List Char) : '\n' ∉ encode cs := by
  intro h
  obtain ⟨c, -, hc⟩ := List.mem_flatMap.mp h
  rcases mem_escape hc with ⟨rfl, hl⟩ | hlt
  · cases hl
  · exact absurd hlt (by decide)

theorem space_not_mem_encode {cs : List Char} (h : ' ' ∉ cs) : ' ' ∉ encode cs := by
  intro hmem
  obtain ⟨c, hcs, hc⟩ := List.mem_flatMap.mp hmem
  rcases mem_escape hc with ⟨rfl, -⟩ | hlt
  · exact h hcs
  · exact absurd hlt (by decide)

end TokenStream.Quoted
