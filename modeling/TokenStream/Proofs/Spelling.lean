import TokenStream.Proofs.Account
import TokenStream.Proofs.Checked

/-!
# Spellings of scanned tokens

The tables of spellings, words and marks are written apart, and agree on every token that a lexer
gives: the kind has the text as its spelling, or has no spelling at all. Kinds that are spelled with
more than one mark are never given, since no lexeme has their spelling. The text of a token is
enough to tell its kind.
-/

namespace TokenStream

/-! ## The tables -/

theorem Keyword.ofWord_spelling (w : Keyword) : Kind.ofWord w.spelling = .keyword w := by
  cases w <;> rfl

theorem Keyword.isWord_spelling (w : Keyword) : IsWord w.spelling := by
  have h : ∃ c cs, w.spelling.toList = c :: cs ∧ isWordHead c = true ∧
      cs.all isWordChar = true := by
    cases w <;> exact ⟨_, _, rfl, rfl, rfl⟩
  obtain ⟨c, cs, hw, hc, hcs⟩ := h
  exact ⟨c, cs, hw, hc, List.all_eq_true.mp hcs⟩

namespace Kind

theorem isKeyword_iff {k : Kind} : k.isKeyword = true ↔ ∃ w, k = keyword w := by
  cases k with
  | keyword w => exact iff_of_true rfl ⟨w, rfl⟩
  | _ => exact iff_of_false (by simp [isKeyword]) (by simp)

theorem ofWord_eq_keyword_iff {x : String} {w : Keyword} :
    ofWord x = keyword w ↔ x = w.spelling := by
  constructor
  · intro h
    unfold ofWord at h
    split at h <;> first | cases h; rfl | cases h
  · rintro rfl
    exact w.ofWord_spelling

/-- A word has no spelling of its own, or it is the spelling of a keyword. -/
theorem ofWord_cases (x : String) :
    ofWord x = identifier ∨ ∃ w, ofWord x = keyword w ∧ x = w.spelling := by
  rcases isWordKind_ofWord x with hid | hkey
  · exact .inl hid
  · obtain ⟨w, hw⟩ := isKeyword_iff.mp hkey
    exact .inr ⟨w, hw, ofWord_eq_keyword_iff.mp hw⟩

/-- Words are looked up by the spellings of the keywords. -/
theorem ofWord_eq_iff {x : String} {k : Kind} :
    ofWord x = k ∧ k ≠ identifier ↔ k.isKeyword = true ∧ k.spelling? = some x := by
  constructor
  · rintro ⟨rfl, hne⟩
    obtain ⟨w, hw, rfl⟩ := (ofWord_cases x).resolve_left hne
    rw [hw]
    exact ⟨rfl, rfl⟩
  · rintro ⟨hkey, hx⟩
    obtain ⟨w, rfl⟩ := isKeyword_iff.mp hkey
    rw [spelling?, Option.some.injEq] at hx
    exact ⟨ofWord_eq_keyword_iff.mpr hx.symm, by simp⟩

theorem spelling?_ofMark? {c : Char} {k : Kind} (h : ofMark? c = some k) :
    k.spelling? = some (String.singleton c) := by
  simp only [ofMark?] at h
  split at h <;> simp only [Option.some.injEq, reduceCtorEq] at h <;> subst h <;> rfl

/-- A kind that is no keyword is spelled with marks, and if with a single one then it is the kind of
that mark. -/
theorem marks_of_spelling? {k : Kind} {p : String} (h : k.spelling? = some p)
    (hk : k.isKeyword = false) :
    (∀ c ∈ p.toList.head?, isWordChar c = false) ∧
      ∀ c, p.toList = [c] → ofMark? c = some k := by
  have hhead : ∀ k ∈ all, k.isKeyword = false →
      k.spelling?.all (fun p => p.toList.head?.all (!isWordChar ·)) = true := by decide +kernel
  have hmark : ∀ k ∈ all, k.isKeyword = false →
      k.spelling?.all (fun p => p.length != 1 || p.toList.all (ofMark? · == some k)) = true := by
    decide +kernel
  replace hhead := hhead k (mem_all k) hk
  replace hmark := hmark k (mem_all k) hk
  rw [h, Option.all_some] at hhead hmark
  refine ⟨fun c hc => ?_, fun c hc => ?_⟩
  · rw [Option.mem_def.mp hc, Option.all_some] at hhead
    simpa using hhead
  · rw [← String.length_toList, hc] at hmark
    simpa using hmark

/-- The kind of the token that has a given text. -/
def ofText (x : String) : Kind :=
  match x.toList with
  | [] => eof
  | c :: _ =>
    if isWordHead c then ofWord x
    else if c.isDigit then number
    else (ofMark? c).getD unknown

end Kind

/-! ## Lexemes -/

namespace IsLexeme

variable {k k' : Kind} {x p : String}

theorem kind_eq_ofText (h : IsLexeme k x) : k = Kind.ofText x := by
  cases h with
  | word hw =>
      obtain ⟨c, cs, hx, hc, -⟩ := hw
      simp [Kind.ofText, hx, hc]
  | number hn =>
      obtain ⟨c, cs, hx, hc⟩ := hn.exists_cons
      have hh := isWordHead_eq_false_of_isDigit hc
      simp [Kind.ofText, hx, hc, hh]
  | mark hm =>
      have hw := (Kind.of_ofMark? hm).1.2.1
      rw [isWordChar_eq, Bool.or_eq_false_iff] at hw
      simp [Kind.ofText, hw.1, hw.2, hm]
  | other _ hw hm =>
      rw [isWordChar_eq, Bool.or_eq_false_iff] at hw
      simp [Kind.ofText, hw.1, hw.2, hm]

/-- A lexeme is spelled as its kind is, and then it is a keyword or a single mark, or its kind has no
spelling. -/
theorem spelling?_cases (h : IsLexeme k x) :
    k.spelling? = some x ∧ (k.isKeyword = true ∨ x.length = 1) ∨
      k.spelling? = none ∧ k ∈ [Kind.identifier, .number, .unknown] := by
  cases h with
  | word _ =>
      rcases Kind.ofWord_cases x with hid | ⟨w, hw, hx⟩
      · rw [hid]
        exact .inr ⟨rfl, List.mem_cons_self⟩
      · rw [hw]
        exact .inl ⟨congrArg some hx.symm, .inl rfl⟩
  | number _ => exact .inr ⟨rfl, by simp⟩
  | mark hm => exact .inl ⟨Kind.spelling?_ofMark? hm, .inr String.length_singleton⟩
  | other _ _ _ => exact .inr ⟨rfl, by simp⟩

/-- A lexeme of a kind that has a spelling is spelled so, and is a single mark if no keyword. -/
theorem of_spelling? (h : IsLexeme k x) (hp : k.spelling? = some p) :
    x = p ∧ (k.isKeyword = false → p.length = 1) := by
  rcases h.spelling?_cases with ⟨hx, hshort⟩ | ⟨hnone, -⟩
  · rw [hp, Option.some.injEq] at hx
    subst hx
    refine ⟨rfl, fun hk => hshort.resolve_left ?_⟩
    rw [hk]
    exact Bool.false_ne_true
  · rw [hp] at hnone
    cases hnone

theorem mem_of_spelling?_eq_none (h : IsLexeme k x) (hk : k.spelling? = none) :
    k ∈ [Kind.identifier, .number, .unknown] := by
  rcases h.spelling?_cases with ⟨hx, -⟩ | ⟨-, hmem⟩
  · rw [hk] at hx
    cases hx
  · exact hmem

/-- A lexeme that has the spelling of a kind is of that kind. -/
theorem kind_eq_of_spelling? (h : IsLexeme k x) (hx : k'.spelling? = some x) : k = k' := by
  cases hk : k'.isKeyword with
  | true =>
      obtain ⟨w, rfl⟩ := Kind.isKeyword_iff.mp hk
      rw [Kind.spelling?, Option.some.injEq] at hx
      subst hx
      have hlex := IsLexeme.word w.isWord_spelling
      rw [h.kind_eq_ofText, ← hlex.kind_eq_ofText, w.ofWord_spelling]
  | false =>
      obtain ⟨hhead, hmark⟩ := Kind.marks_of_spelling? hx hk
      obtain ⟨c, cs, hcs⟩ := h.exists_cons
      have hc : TokenStream.isWordChar c = false := hhead c (by rw [hcs]; rfl)
      -- words and numbers begin with a character that stands in words
      have hnot : ¬(IsWord x ∨ IsNumeral x) := by
        rw [← h.isWordChar_iff hcs, hc]
        simp
      cases h with
      | word hw => exact absurd (.inl hw) hnot
      | number hn => exact absurd (.inr hn) hnot
      | mark hm =>
          have := hmark _ (String.toList_singleton _)
          rw [hm, Option.some.injEq] at this
          exact this
      | other _ _ hm =>
          have := hmark _ (String.toList_singleton _)
          rw [hm] at this
          cases this

end IsLexeme

/-! ## Tokens of a session -/

namespace Tape

variable {T : Tape} {t : Token}

theorem mem_of_mem_drop {i : Nat} (ht : t ∈ T.tokens.drop i ++ [T.eof]) :
    t ∈ T.tokens ++ [T.eof] := by
  rcases List.mem_append.mp ht with ht | ht
  · exact List.mem_append_left _ (List.mem_of_mem_drop ht)
  · exact List.mem_append_right _ ht

theorem mem_of_mem_ahead {h : Head} (ht : t ∈ T.ahead h) : t ∈ T.tokens ++ [T.eof] := by
  unfold ahead at ht
  split at ht
  · cases ht
  · exact mem_of_mem_drop ht

theorem mem_scan (T : Tape) (h : Head) : (T.scan h).1 ∈ T.tokens ++ [T.eof] := by
  cases ht : T.tokens[h.index]? with
  | some t =>
      rw [scan_of_some ht]
      exact List.mem_append_left _ (List.mem_of_getElem? ht)
  | none =>
      rw [scan_of_none ht]
      exact List.mem_append_right _ (List.mem_singleton_self _)

/-- No step gives a token that is not on the tape. -/
theorem mem_of_mem_given {h : Head} {step : Step} (ht : t ∈ (T.step h step).1.given) :
    t ∈ T.tokens ++ [T.eof] := by
  cases step with
  | scan =>
      rw [List.mem_singleton.mp ht]
      exact mem_scan T h
  | next =>
      have hnext : (T.next h).1 = some t := Option.mem_toList.mp ht
      rw [fst_next] at hnext
      exact mem_of_mem_ahead (List.mem_of_head? hnext)
  | scanAll => exact mem_of_mem_drop ht
  | collect => exact mem_of_mem_ahead ht
  | take n => exact mem_of_mem_ahead (List.mem_of_mem_take ht)
  | nth n => exact mem_of_mem_ahead (List.mem_of_getElem? (Option.mem_toList.mp ht))
  | count => cases ht
  | last => exact mem_of_mem_ahead (List.mem_of_getLast? (Option.mem_toList.mp ht))
  | source => cases ht

theorem mem_of_mem_session {h : Head} {steps : List Step} {o : Outcome}
    (ho : o ∈ T.session h steps) (ht : t ∈ o.answer.given) : t ∈ T.tokens ++ [T.eof] := by
  induction steps generalizing h with
  | nil => cases ho
  | cons step steps ih =>
      rcases List.mem_cons.mp ho with rfl | ho
      · exact mem_of_mem_given ht
      · exact ih ho

end Tape

/-- All tokens that some steps on a new lexer answer with, in order. -/
def givenBy (s : String) (level : Level) (steps : List Step) : List Token :=
  ((Lexer.ofString s level).session steps).flatMap (·.answer.given)

variable {s : String} {level : Level} {steps : List Step} {t : Token}

theorem isLexeme_or_eof_of_mem_givenBy (ht : t ∈ givenBy s level steps) :
    IsLexeme t.kind t.text ∨ t = .eof s.utf8ByteSize := by
  obtain ⟨o, ho, hto⟩ := List.mem_flatMap.mp ht
  rw [(Tape.tracks_ofString s level).session] at ho
  obtain ⟨o', ho', rfl⟩ := List.mem_map.mp ho
  rcases List.mem_append.mp (Tape.mem_of_mem_session ho' hto) with hmem | hmem
  · obtain ⟨_, _, -, -, hlex, -⟩ := (Tape.ofSource s).reads.exists_append hmem
    exact .inl hlex
  · exact .inr (List.mem_singleton.mp hmem)

theorem kind_eq_ofText_of_mem_givenBy (ht : t ∈ givenBy s level steps) :
    t.kind = Kind.ofText t.text := by
  rcases isLexeme_or_eof_of_mem_givenBy ht with hlex | rfl
  · exact hlex.kind_eq_ofText
  · rfl

/-! ## Agreement -/

/-- The kinds of literals that are not scanned as such, of escape sequences, and of operators that
are more than one mark. -/
def Kind.IsReserved (k : Kind) : Prop :=
  k = .string ∨ k = .bool ∨ (∃ e, k = .escape e) ∨
    k.isOperator = true ∧ ∃ p, k.spelling? = some p ∧ 1 < p.length

/-- The kind and the text of a token agree with the table of spellings. -/
structure Token.Agrees (t : Token) : Prop where
  kind_eq_iff : ∀ k p, k.spelling? = some p → (t.kind = k ↔ t.text = p)
  of_spelling?_eq_none : t.kind.spelling? = none → t.kind ∈ [.eof, .identifier, .number, .unknown]
  not_isReserved : ¬t.kind.IsReserved

theorem Kind.spelling?_ne_some_empty {k : Kind} : k.spelling? ≠ some "" := by
  have h : ∀ k ∈ all, k.spelling? ≠ some "" := by decide +kernel
  exact h k (mem_all k)

theorem IsLexeme.not_isReserved {k : Kind} {x : String} (h : IsLexeme k x) : ¬k.IsReserved := by
  rintro (rfl | rfl | ⟨e, rfl⟩ | ⟨hop, p, hp, hlen⟩)
  · simpa using h.mem_of_spelling?_eq_none rfl
  · simpa using h.mem_of_spelling?_eq_none rfl
  · have hone := (h.of_spelling? rfl).2 rfl
    cases e <;> cases hone
  · have hkey : k.isKeyword = false := by
      cases k with
      | keyword w => cases hop
      | _ => rfl
    have hone := (h.of_spelling? hp).2 hkey
    omega

theorem IsLexeme.agrees {t : Token} (h : IsLexeme t.kind t.text) : t.Agrees where
  kind_eq_iff k p hp := by
    constructor
    · rintro rfl
      exact (h.of_spelling? hp).1
    · rintro rfl
      exact h.kind_eq_of_spelling? hp
  of_spelling?_eq_none hk := List.mem_cons_of_mem _ (h.mem_of_spelling?_eq_none hk)
  not_isReserved := h.not_isReserved

theorem Token.agrees_eof (n : Nat) : (Token.eof n).Agrees where
  kind_eq_iff k p hp := by
    constructor
    · rintro rfl
      cases hp
    · rintro rfl
      exact absurd hp Kind.spelling?_ne_some_empty
  of_spelling?_eq_none _ := List.mem_cons_self
  not_isReserved := by
    rintro (h | h | ⟨e, h⟩ | ⟨h, -⟩) <;> cases h

/-- Every token that a lexer gives agrees with the table of spellings, and its text alone settles
its kind. A word is a keyword exactly when the table has it as the spelling of one. -/
theorem kinds_agree_with_spellings :
    (∀ s level steps, ∀ t ∈ givenBy s level steps, t.Agrees) ∧
      (∀ s level steps s' level' steps',
        ∀ t ∈ givenBy s level steps, ∀ t' ∈ givenBy s' level' steps',
          t.text = t'.text → t.kind = t'.kind) ∧
      (∀ x k, Kind.ofWord x = k ∧ k ≠ .identifier ↔
        k.isKeyword = true ∧ k.spelling? = some x) ∧
      ∀ x, (¬∃ k : Kind, k.isKeyword = true ∧ k.spelling? = some x) →
        Kind.ofWord x = .identifier := by
  refine ⟨fun s level steps t ht => ?_, fun s level steps s' level' steps' t ht t' ht' htext => ?_,
    fun x k => Kind.ofWord_eq_iff, fun x hx => ?_⟩
  · rcases isLexeme_or_eof_of_mem_givenBy ht with hlex | rfl
    · exact hlex.agrees
    · exact Token.agrees_eof _
  · rw [kind_eq_ofText_of_mem_givenBy ht, kind_eq_ofText_of_mem_givenBy ht', htext]
  · refine Decidable.byContradiction fun hne => ?_
    exact hx ⟨_, Kind.ofWord_eq_iff.mp ⟨rfl, hne⟩⟩

end TokenStream
