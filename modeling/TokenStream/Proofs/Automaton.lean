import TokenStream.Proofs.Concatenation
import TokenStream.Proofs.Stream

/-!
# An automaton over characters

An automaton takes the characters of a text one at a time and never looks at the next one: it keeps
the word or numeral that it is in, and gives it out when a character comes that does not belong to
it. Cutting the text in pieces is nothing to it. It gives out what a lexer gives for the whole text.
-/

namespace TokenStream

/-! ## Lexemes that grow -/

theorem IsWord.append_singleton {x : String} {c : Char} (hx : IsWord x)
    (hc : TokenStream.isWordChar c = true) : IsWord (x ++ String.singleton c) := by
  obtain ⟨d, ds, hds, hd, hall⟩ := hx
  refine ⟨d, ds ++ [c], by simp [hds], hd, ?_⟩
  intro e he
  rcases List.mem_append.mp he with he | he
  · exact hall e he
  · exact List.mem_singleton.mp he ▸ hc

theorem isWord_singleton {c : Char} (hc : isWordHead c = true) : IsWord (String.singleton c) :=
  ⟨c, [], String.toList_singleton c, hc, by simp⟩

theorem IsNumeral.append_singleton {x : String} {c : Char} (hx : IsNumeral x)
    (hc : c.isDigit = true) : IsNumeral (x ++ String.singleton c) := by
  obtain ⟨-, hall⟩ := hx
  refine ⟨by simp, ?_⟩
  intro d hd
  rw [String.toList_append, String.toList_singleton] at hd
  rcases List.mem_append.mp hd with hd | hd
  · exact hall d hd
  · exact List.mem_singleton.mp hd ▸ hc

theorem isNumeral_singleton {c : Char} (hc : c.isDigit = true) :
    IsNumeral (String.singleton c) :=
  ⟨by simp, by simpa using hc⟩

/-! ## The automaton -/

/-- The lexeme that an automaton is in. Only words and numerals grow. -/
inductive Pending where
  | idle
  | word (text : String) (isWord : IsWord text)
  | numeral (text : String) (isNumeral : IsNumeral text)

namespace Pending

def text : Pending → String
  | idle => ""
  | word x _ => x
  | numeral x _ => x

/-- What is given out when the lexeme ends, if it began at the offset `lo`. -/
def tokens (lo : Nat) : Pending → List Token
  | idle => []
  | word x _ => [⟨Kind.ofWord x, x, ⟨lo, lo + x.utf8ByteSize⟩⟩]
  | numeral x _ => [⟨.number, x, ⟨lo, lo + x.utf8ByteSize⟩⟩]

/-- A digit belongs to every lexeme that can grow, and begins a numeral otherwise. -/
def digit (c : Char) (hc : c.isDigit = true) : Pending → Pending
  | idle => numeral (String.singleton c) (isNumeral_singleton hc)
  | word x hx => word (x ++ String.singleton c) (hx.append_singleton (isWordChar_of_isDigit hc))
  | numeral x hx => numeral (x ++ String.singleton c) (hx.append_singleton hc)

end Pending

/-- What has been given out, and the lexeme that the automaton is in with the offset of it. -/
structure Automaton where
  emitted : List Token := []
  start : Nat := 0
  pending : Pending := .idle

namespace Automaton

/-- The number of bytes taken so far. -/
def offset (a : Automaton) : Nat := a.start + a.pending.text.utf8ByteSize

/-- Gives out the lexeme that the automaton is in. -/
def flush (a : Automaton) : Automaton :=
  { emitted := a.emitted ++ a.pending.tokens a.start, start := a.offset }

/-- Takes a character that belongs to no lexeme. -/
def skip (a : Automaton) (c : Char) : Automaton :=
  { emitted := a.flush.emitted, start := a.offset + c.utf8Size }

/-- Gives out a character by itself, after the lexeme that it ends. -/
def emit (a : Automaton) (c : Char) : Automaton :=
  let hi := a.offset + c.utf8Size
  let kind := (Kind.ofMark? c).getD .unknown
  { emitted := a.flush.emitted ++ [⟨kind, String.singleton c, ⟨a.offset, hi⟩⟩], start := hi }

/-- A letter or underscore belongs to a word, and begins one otherwise. -/
def letter (a : Automaton) (c : Char) (hc : isWordHead c = true) : Automaton :=
  match a.pending with
  | .word x hx =>
    let y := x ++ String.singleton c
    { a with pending := .word y (hx.append_singleton (isWordChar_of_isWordHead hc)) }
  | _ => { a.flush with pending := .word (String.singleton c) (isWord_singleton hc) }

/-- Takes one character. -/
def push (a : Automaton) (c : Char) : Automaton :=
  if c.isWhitespace then a.skip c
  else if hd : c.isDigit = true then { a with pending := a.pending.digit c hd }
  else if hw : isWordHead c = true then a.letter c hw
  else a.emit c

/-- Takes the characters of a piece of text. -/
def feed (a : Automaton) (piece : String) : Automaton := piece.toList.foldl push a

/-- All that is given out when no more text comes. -/
def finish (a : Automaton) : List Token := a.flush.emitted ++ [.eof a.offset]

end Automaton

/-! ## Offsets -/

theorem Pending.text_digit (p : Pending) {c : Char} (hc : c.isDigit = true) :
    (p.digit c hc).text = p.text ++ String.singleton c := by
  cases p with
  | idle => exact String.empty_append.symm
  | word x hx => rfl
  | numeral x hx => rfl

namespace Automaton

theorem offset_push (a : Automaton) (c : Char) : (a.push c).offset = a.offset + c.utf8Size := by
  unfold push
  split
  · rfl
  · split
    · simp [offset, Pending.text_digit, Nat.add_assoc]
    · split
      · unfold letter
        split
        · next hp => simp [offset, Pending.text, hp, Nat.add_assoc]
        · simp [offset, flush, Pending.text]
      · rfl

theorem offset_foldl_push (a : Automaton) (cs : List Char) :
    (cs.foldl push a).offset = a.offset + (String.ofList cs).utf8ByteSize := by
  induction cs generalizing a with
  | nil => simp
  | cons c cs ih =>
      rw [List.foldl_cons, ih, offset_push, String.ofList_cons, String.utf8ByteSize_append,
        String.utf8ByteSize_singleton, Nat.add_assoc]

/-! ## What an automaton comes to -/

/-- With the text `t` to come, the tokens given out in the end are `ts`: the text reads, with the
lexeme that the automaton is in before it, as the tokens that are missing. -/
def ComesTo (a : Automaton) (t : String) (ts : List Token) : Prop :=
  ∃ us, Reads a.start (a.pending.text ++ t) us ∧ ts = a.emitted ++ us

variable {a : Automaton} {t : String} {us ts : List Token}

theorem comesTo_idle {emitted : List Token} {start : Nat} :
    ComesTo ⟨emitted, start, .idle⟩ t ts ↔ ∃ us, Reads start t us ∧ ts = emitted ++ us := by
  simp [ComesTo, Pending.text]

/-- The lexeme that the automaton is in may be given out when the text to come does not continue
it. -/
theorem comesTo_of_flush (h : Reads a.offset t us) (ht : ¬Continues a.pending.text t) :
    a.ComesTo t (a.flush.emitted ++ us) := by
  refine ⟨a.pending.tokens a.start ++ us, ?_, List.append_assoc ..⟩
  unfold offset at h
  revert h ht
  cases a.pending with
  | idle =>
      intro h _
      rwa [Pending.text, String.empty_append]
  | word x hx => exact fun h ht => .lexeme (.word hx) ht h
  | numeral x hx => exact fun h ht => .lexeme (.number hx) ht h

/-! ## One character -/

variable {c : Char}

theorem ComesTo.of_skip (h : (a.skip c).ComesTo t ts) (hc : c.isWhitespace = true) :
    a.ComesTo (String.singleton c ++ t) ts := by
  obtain ⟨us, hus, rfl⟩ := comesTo_idle.mp h
  have hblank : IsBlankText (String.singleton c) := by
    intro d hd
    rw [String.toList_singleton, List.mem_singleton] at hd
    exact hd ▸ hc
  rw [← String.utf8ByteSize_singleton] at hus
  exact comesTo_of_flush (.blank_append hblank hus)
    (not_continues_of_isWhitespace (toList_singleton_append c t) hc)

theorem ComesTo.of_digit {hc : c.isDigit = true}
    (h : ({ a with pending := a.pending.digit c hc } : Automaton).ComesTo t ts) :
    a.ComesTo (String.singleton c ++ t) ts := by
  obtain ⟨us, hus, rfl⟩ := h
  rw [Pending.text_digit, String.append_assoc] at hus
  exact ⟨us, hus, rfl⟩

/-- What is no word is not continued by a letter. -/
theorem not_continues_letter {x : String} (hx : ¬IsWord x) (hc : isWordHead c = true) :
    ¬Continues x (String.singleton c ++ t) := by
  intro h
  obtain ⟨d, hd, ⟨hw, -⟩ | ⟨-, hdigit⟩⟩ := h
  · exact hx hw
  · rw [toList_singleton_append, List.head?_cons, Option.some.injEq] at hd
    rw [← hd, isDigit_eq_false_of_isWordHead hc] at hdigit
    cases hdigit

theorem ComesTo.of_letter {hc : isWordHead c = true} (h : (a.letter c hc).ComesTo t ts) :
    a.ComesTo (String.singleton c ++ t) ts := by
  obtain ⟨emitted, start, pending⟩ := a
  obtain ⟨us, hus, rfl⟩ := h
  cases pending with
  | word x hx =>
      have hread : Reads start (x ++ String.singleton c ++ t) us := hus
      rw [String.append_assoc] at hread
      exact ⟨us, hread, rfl⟩
  | idle =>
      have hempty : ¬IsWord "" := by
        intro hw
        obtain ⟨_, _, hw, -⟩ := hw
        cases hw
      exact comesTo_of_flush hus (not_continues_letter hempty hc)
  | numeral x hx =>
      exact comesTo_of_flush hus (not_continues_letter (fun hw => hw.not_isNumeral hx) hc)

theorem ComesTo.of_emit (h : (a.emit c).ComesTo t ts) (hb : c.isWhitespace = false)
    (hc : isWordChar c = false) : a.ComesTo (String.singleton c ++ t) ts := by
  obtain ⟨us, hus, rfl⟩ := comesTo_idle.mp h
  have hlex : IsLexeme ((Kind.ofMark? c).getD .unknown) (String.singleton c) := by
    cases hm : Kind.ofMark? c with
    | none => exact .other hb hc hm
    | some k => exact .mark hm
  rw [← String.utf8ByteSize_singleton] at hus ⊢
  rw [List.append_assoc]
  exact comesTo_of_flush (.lexeme hlex (not_continues_singleton hc t) hus)
    (not_continues_of_isWordChar_eq_false (toList_singleton_append c t) hc)

/-- One character more taken is one less to come. -/
theorem ComesTo.of_push (h : (a.push c).ComesTo t ts) :
    a.ComesTo (String.singleton c ++ t) ts := by
  unfold push at h
  split at h
  · next hb => exact h.of_skip hb
  · next hb =>
    split at h
    · exact h.of_digit
    · next hd =>
      split at h
      · exact h.of_letter
      · next hw =>
        have hc : isWordChar c = false := by simp [isWordChar_eq, hw, hd]
        exact h.of_emit (Bool.eq_false_iff.mpr hb) hc

/-! ## Texts -/

theorem comesTo_foldl_push (a : Automaton) (cs : List Char) :
    a.ComesTo (String.ofList cs) (cs.foldl push a).flush.emitted := by
  induction cs generalizing a with
  | nil =>
      have h := comesTo_of_flush (a := a) (.stop isBlankText_empty) (not_continues_empty _)
      rwa [List.append_nil] at h
  | cons c cs ih =>
      rw [String.ofList_cons, List.foldl_cons]
      exact (ih (a.push c)).of_push

theorem feed_append (a : Automaton) (s t : String) : a.feed (s ++ t) = (a.feed s).feed t := by
  rw [feed, String.toList_append, List.foldl_append]
  rfl

/-- How a text is cut makes no difference to the automaton. -/
theorem foldl_feed (a : Automaton) (pieces : List String) :
    pieces.foldl feed a = a.feed (String.join pieces) := by
  induction pieces generalizing a with
  | nil => rfl
  | cons piece pieces ih => rw [List.foldl_cons, ih, String.join_cons, feed_append]

theorem finish_feed (s : String) (level : Level) :
    (({} : Automaton).feed s).finish = (Lexer.ofString s level).scanAll.1 := by
  obtain ⟨us, hus, hemitted⟩ := comesTo_foldl_push {} s.toList
  rw [String.ofList_toList, Pending.text, String.empty_append] at hus
  rw [List.nil_append] at hemitted
  have hoffset : (s.toList.foldl push {}).offset = s.utf8ByteSize := by
    rw [offset_foldl_push, String.ofList_toList]
    exact Nat.zero_add _
  rw [Lexer.scanAll_eq_iff.mpr hus, finish, feed, hoffset, hemitted]

end Automaton

/-- Whatever pieces a text comes in, an automaton that takes them one after another gives out what
a new lexer gives for the whole text, pulled at once or by `next`. -/
theorem automaton_finish (pieces : List String) (level : Level) :
    let l := Lexer.ofString (String.join pieces) level
    let given := (pieces.foldl Automaton.feed {}).finish
    given = l.scanAll.1 ∧ given = l.collect.1 := by
  intro l given
  have hgiven : given = l.scanAll.1 := by
    rw [← Automaton.finish_feed, ← Automaton.foldl_feed]
  have hcollect := (Tape.tracks_ofString (String.join pieces) level).follows.collect.1
  refine ⟨hgiven, ?_⟩
  rw [hgiven, hcollect]
  exact Lexer.scanAll_eq_iff.mpr (Tape.ofSource _).reads

-- pieces may cut a word or a numeral anywhere
example : (["i", "fx ", "1", "2é"].foldl Automaton.feed {}).finish =
    [⟨.identifier, "ifx", ⟨0, 3⟩⟩, ⟨.number, "12", ⟨4, 6⟩⟩, ⟨.unknown, "é", ⟨6, 8⟩⟩, .eof 8] := by
  decide +kernel

end TokenStream
