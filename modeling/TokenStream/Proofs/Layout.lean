import Mathlib.Data.List.Chain
import TokenStream.Proofs.Reading

/-!
# Layouts

A layout is a list of lexemes with blanks between and around them. Scanning what it renders to
gives its lexemes back, each where it was put, exactly when the layout keeps apart what would
otherwise be taken together: a word and a word or numeral behind it, and two numerals. A numeral
needs nothing between it and a word behind it.
-/

namespace TokenStream

structure Lexeme where
  kind : Kind
  text : String
  isLexeme : IsLexeme kind text

structure Gap where
  text : String
  isBlankText : IsBlankText text

/-- A gap, and then lexemes with a gap behind each. -/
structure Layout where
  lead : Gap
  items : List (Lexeme × Gap)

/-- Two texts that, with nothing between them, are not scanned apart. -/
def Glues (x y : String) : Prop :=
  IsWord x ∧ (IsWord y ∨ IsNumeral y) ∨ IsNumeral x ∧ IsNumeral y

namespace Layout

def renderItems : List (Lexeme × Gap) → String
  | [] => ""
  | (x, w) :: items => x.text ++ (w.text ++ renderItems items)

def render (L : Layout) : String := L.lead.text ++ renderItems L.items

/-- The tokens of lexemes that lie at an offset with their gaps. -/
def tokensFrom (o : Nat) : List (Lexeme × Gap) → List Token
  | [] => []
  | (x, w) :: items =>
    ⟨x.kind, x.text, ⟨o, o + x.text.utf8ByteSize⟩⟩ ::
      tokensFrom (o + x.text.utf8ByteSize + w.text.utf8ByteSize) items

def tokens (L : Layout) : List Token := tokensFrom L.lead.text.utf8ByteSize L.items

/-- No lexeme lies right before one that it glues to. -/
def Separated (L : Layout) : Prop :=
  ¬∃ i x w y w', L.items[i]? = some (x, w) ∧ L.items[i + 1]? = some (y, w') ∧ w.text = "" ∧
    Glues x.text y.text

/-! ## Neighbours -/

theorem continues_append_iff_glues {k : Kind} {x y : String} (hy : IsLexeme k y) (u : String) :
    Continues x (y ++ u) ↔ Glues x y := by
  obtain ⟨c, cs, hc⟩ := hy.exists_cons
  unfold Glues
  rw [← hy.isWordChar_iff hc, ← hy.isDigit_iff hc]
  simp [Continues, hc]

theorem continues_renderItems_iff {x : String} {w : Gap} {items : List (Lexeme × Gap)} :
    Continues x (w.text ++ renderItems items) ↔
      w.text = "" ∧ ∃ b ∈ items.head?, Glues x b.1.text := by
  cases hw : w.text.toList with
  | nil =>
      rw [String.toList_eq_nil_iff] at hw
      rw [hw, String.empty_append]
      cases items with
      | nil => simp [renderItems, not_continues_empty]
      | cons b items =>
          simp only [renderItems]
          rw [continues_append_iff_glues b.1.isLexeme]
          simp
  | cons c cs =>
      have hc : c.isWhitespace = true := w.isBlankText c (by simp [hw])
      have hcs : (w.text ++ renderItems items).toList =
          c :: (cs ++ (renderItems items).toList) := by
        rw [String.toList_append, hw, List.cons_append]
      apply iff_of_false
      · exact not_continues_of_isWhitespace hcs hc
      · intro h
        obtain ⟨hne, -⟩ := h
        rw [hne] at hw
        cases hw

/-! ## Reading a layout -/

theorem reads_iff_isChain {o : Nat} {w : Gap} {items : List (Lexeme × Gap)} :
    Reads o (w.text ++ renderItems items) (tokensFrom (o + w.text.utf8ByteSize) items) ↔
      items.IsChain fun a b => ¬(a.2.text = "" ∧ Glues a.1.text b.1.text) := by
  induction items generalizing o w with
  | nil =>
      simp only [renderItems, tokensFrom, String.append_empty]
      exact iff_of_true (.stop w.isBlankText) .nil
  | cons a items ih =>
      obtain ⟨x, v⟩ := a
      have hhead : ¬(v.text = "" ∧ ∃ b ∈ items.head?, Glues x.text b.1.text) ↔
          ∀ b ∈ items.head?, ¬(v.text = "" ∧ Glues x.text b.1.text) := by
        constructor
        · intro h b hb hglue
          exact h ⟨hglue.1, b, hb, hglue.2⟩
        · intro h hex
          obtain ⟨hv, b, hb, hglue⟩ := hex
          exact h b hb ⟨hv, hglue⟩
      simp only [renderItems, tokensFrom]
      rw [reads_append_iff w.isBlankText x.isLexeme, ih, continues_renderItems_iff, hhead,
        List.isChain_cons]

theorem separated_iff_isChain {L : Layout} :
    L.Separated ↔
      L.items.IsChain fun a b => ¬(a.2.text = "" ∧ Glues a.1.text b.1.text) := by
  rw [List.isChain_iff_getElem]
  constructor
  · intro h i hi hglue
    exact h ⟨i, _, _, _, _, List.getElem?_eq_getElem _, List.getElem?_eq_getElem hi, hglue⟩
  · intro h hex
    obtain ⟨i, x, w, y, w', hx, hy, hglue⟩ := hex
    obtain ⟨hi, hy⟩ := List.getElem?_eq_some_iff.mp hy
    obtain ⟨_, hx⟩ := List.getElem?_eq_some_iff.mp hx
    apply h i hi
    rw [hx, hy]
    exact hglue

/-- A new lexer gives back the lexemes of a layout exactly when the layout keeps them apart. -/
theorem scanAll_render_iff (L : Layout) (level : Level) :
    (Lexer.ofString L.render level).scanAll.1 = L.tokens ++ [.eof L.render.utf8ByteSize] ↔
      L.Separated := by
  have hreads := @reads_iff_isChain 0 L.lead L.items
  rw [Nat.zero_add] at hreads
  rw [Lexer.scanAll_eq_iff, separated_iff_isChain, ← hreads]
  rfl

end Layout

end TokenStream
