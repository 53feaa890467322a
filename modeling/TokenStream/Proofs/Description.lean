import TokenStream.Proofs.Printed

/-!
# Telling tokens apart by their texts

Both ways to write a token name its kind and quote its text, and each of these ends where what
follows it begins, whatever the text is. So the long form shows all of a token, and the short form
all but its span.
-/

namespace TokenStream

/-! ## Parts of a text -/

variable {c : Char} {r r' : List Char}

/-- A run of characters of a class ends at the first character outside of it. -/
theorem run_append_inj {q : Char → Bool} {xs ys : List Char} (hx : ∀ d ∈ xs, q d = true)
    (hy : ∀ d ∈ ys, q d = true) (hc : q c = false) (h : xs ++ c :: r = ys ++ c :: r') :
    xs = ys ∧ r = r' := by
  have hrun := congrArg (List.takeWhile q) h
  have hstop (ds : List Char) : (c :: ds).takeWhile q = [] := by simp [hc]
  rw [List.takeWhile_append_of_pos hx, List.takeWhile_append_of_pos hy, hstop, hstop,
    List.append_nil, List.append_nil] at hrun
  subst hrun
  exact ⟨rfl, (List.cons.inj (List.append_cancel_left h)).2⟩

theorem Kind.name_append_inj {k k' : Kind} (hc : c.isAlpha = false)
    (h : k.name.toList ++ c :: r = k'.name.toList ++ c :: r') : k = k' ∧ r = r' := by
  obtain ⟨hname, hr⟩ :=
    run_append_inj (fun _ => isAlpha_of_mem_name) (fun _ => isAlpha_of_mem_name) hc h
  have hk := ofName?_name k
  rw [String.toList_inj.mp hname, ofName?_name, Option.some.injEq] at hk
  exact ⟨hk.symm, hr⟩

theorem Quoted.quote_append_inj {x x' : String}
    (h : (quote x).toList ++ r = (quote x').toList ++ r') : x = x' ∧ r = r' := by
  simp only [toList_quote, List.cons_append, List.cons.injEq, true_and] at h
  have hread (s : String) (ds : List Char) :
      read? (encode s.toList ++ ['"'] ++ ds) = some (s.toList, ds) := by
    rw [List.append_assoc]
    exact read?_encode s.toList ds
  have hpair := congrArg read? h
  rw [hread, hread, Option.some.injEq, Prod.mk.injEq] at hpair
  exact ⟨String.toList_inj.mp hpair.1, hpair.2⟩

theorem toString_append_inj {m n : Nat} (hc : c.isDigit = false)
    (h : (toString m).toList ++ c :: r = (toString n).toList ++ c :: r') : m = n ∧ r = r' := by
  have hdigits (n : Nat) : ∀ d ∈ (toString n).toList, d.isDigit = true := by
    intro d hd
    rw [Nat.toString_eq_repr, Nat.toList_repr] at hd
    exact Nat.isDigit_of_mem_toDigits (by decide) (by decide) hd
  obtain ⟨hmn, hr⟩ := run_append_inj (hdigits m) (hdigits n) hc h
  rw [Nat.toString_eq_repr, Nat.toString_eq_repr, Nat.toList_repr, Nat.toList_repr] at hmn
  have hvalue := congrArg (Nat.ofDigitChars 10 · 0) hmn
  simp only [Nat.ofDigitChars_ten_toDigits] at hvalue
  exact ⟨hvalue, hr⟩

theorem Span.describe_append_inj {s s' : Span}
    (h : s.describe.toList ++ r = s'.describe.toList ++ r') : s = s' ∧ r = r' := by
  have hcomma : ", hi: ".toList = ',' :: " hi: ".toList := rfl
  have hspace : " \x7d".toList = ' ' :: "\x7d".toList := rfl
  obtain ⟨lo, hi⟩ := s
  obtain ⟨lo', hi'⟩ := s'
  unfold describe at h
  simp only [String.toList_append, List.append_assoc, hcomma, hspace, List.cons_append,
    List.append_cancel_left_eq] at h
  obtain ⟨hlo, hrest⟩ := toString_append_inj (by decide) h
  rw [List.append_cancel_left_eq] at hrest
  obtain ⟨hhi, hend⟩ := toString_append_inj (by decide) hrest
  rw [hlo, hhi]
  exact ⟨rfl, List.append_cancel_left hend⟩

/-! ## The two forms -/

namespace Token

variable {a b : Token}

theorem describe_inj : a.describe = b.describe ↔ a = b := by
  constructor
  · intro h
    have hcomma : ", text: ".toList = ',' :: " text: ".toList := rfl
    obtain ⟨k, x, s⟩ := a
    obtain ⟨k', x', s'⟩ := b
    have hlist := congrArg String.toList h
    unfold describe at hlist
    simp only [String.toList_append, List.append_assoc, hcomma, List.cons_append,
      List.append_cancel_left_eq] at hlist
    obtain ⟨hkind, hrest⟩ := Kind.name_append_inj (by decide) hlist
    rw [List.append_cancel_left_eq] at hrest
    obtain ⟨htext, hend⟩ := Quoted.quote_append_inj hrest
    rw [List.append_cancel_left_eq] at hend
    rw [hkind, htext, (Span.describe_append_inj hend).1]
  · rintro rfl
    rfl

theorem display_eq_iff : a.display = b.display ↔ a.kind = b.kind ∧ a.text = b.text := by
  constructor
  · intro h
    have hform (t : Token) : t.display.toList =
        t.kind.name.toList ++ '(' :: ((Quoted.quote t.text).toList ++ [')']) := by
      simp [display]
    have hlist := congrArg String.toList h
    rw [hform, hform] at hlist
    obtain ⟨hkind, hlist⟩ := Kind.name_append_inj (by decide) hlist
    exact ⟨hkind, (Quoted.quote_append_inj hlist).1⟩
  · rintro ⟨hkind, htext⟩
    rw [display, display, hkind, htext]

/-- The long form of a token tells it from every other, and the short form tells its kind and text
from every other, even when the text imitates what stands around it. -/
theorem forms_faithful (a b : Token) :
    ((a == b) = true ↔ a.describe = b.describe) ∧
      (a.display = b.display ↔ a.kind = b.kind ∧ a.text = b.text) :=
  ⟨beq_iff_eq.trans describe_inj.symm, display_eq_iff⟩

end Token

end TokenStream
