import TokenStream.Command.Arguments

/-!
# Options and operands

What one argument is by its text. An operand is no option, and an option asks for what its name
says: the name of a long option stands between its dashes and an equals sign, and that of a group of
short ones is its first letter.
-/

namespace TokenStream.Command

/-! ## Operands -/

/-- A dash, the empty text, and what does not begin with a dash. -/
def IsOperand (a : String) : Prop := a = "-" ∨ a = "" ∨ a.toList.head? ≠ some '-'

instance (a : String) : Decidable (IsOperand a) :=
  inferInstanceAs (Decidable (a = "-" ∨ a = "" ∨ a.toList.head? ≠ some '-'))

theorem ofOption?_eq_none_iff {a : String} : Request.ofOption? a = none ↔ IsOperand a := by
  have hdash : a = "-" ↔ a.toList = ['-'] := by rw [← String.toList_inj]; rfl
  have hempty : a = "" ↔ a.toList = [] := String.toList_eq_nil_iff.symm
  rw [IsOperand, hdash, hempty]
  simp only [Request.ofOption?]
  split
  · next cs ha => simp [ha]
  · next c others _ ha => simp [ha]
  · next hlong hshort =>
    refine iff_of_true rfl ?_
    cases ha : a.toList with
    | nil => exact .inr (.inl rfl)
    | cons c cs =>
        by_cases hc : c = '-'
        · subst hc
          cases cs with
          | nil => exact .inl rfl
          | cons d ds => exact absurd ha (hshort d ds)
        · exact .inr (.inr (by simpa using hc))

/-! ## Options -/

/-- The meaning of a name that may be one of two, and is shown as it is given otherwise. -/
def named (help version shown name : String) : Request :=
  if name = help then .help else if name = version then .version else .reject shown

/-- What an option asks for by its text. -/
inductive OptionAsks (a : String) : Request → Prop
  /-- Behind two dashes, further dashes, a name, and a value behind an equals sign if there is one;
  the name alone counts. -/
  | long (dashes name value : List Char) :
      a.toList = '-' :: '-' :: (dashes ++ (name ++ value)) → (∀ c ∈ dashes, c = '-') →
      name.head? ≠ some '-' → '=' ∉ name → (value = [] ∨ ∃ cs, value = '=' :: cs) →
      OptionAsks a (named "help" "version" ("--" ++ String.ofList name) (String.ofList name))
  /-- Behind one dash, letters of which the first one alone counts. -/
  | short {c : Char} {others : List Char} :
      a.toList = '-' :: c :: others → c ≠ '-' →
      OptionAsks a (named "h" "V" ("-" ++ String.singleton c) (String.singleton c))

theorem ofLong_eq_named {cs name : List Char}
    (h : name = (cs.dropWhile (· == '-')).takeWhile (· != '=')) :
    Request.ofLong cs =
      named "help" "version" ("--" ++ String.ofList name) (String.ofList name) := by
  have heq (x : String) : name = x.toList ↔ String.ofList name = x := by
    rw [← String.toList_inj, String.toList_ofList]
  have hshown : String.ofList ('-' :: '-' :: name) = "--" ++ String.ofList name := by
    rw [← String.toList_inj]
    simp
  simp only [Request.ofLong, ← h, named, heq, hshown]

theorem ofShort_eq_named (c : Char) :
    Request.ofShort c = named "h" "V" ("-" ++ String.singleton c) (String.singleton c) := by
  have heq (d : Char) : String.singleton c = String.singleton d ↔ c = d := by
    rw [← String.toList_inj]
    simp
  have hshown : String.ofList ['-', c] = "-" ++ String.singleton c := by
    rw [← String.toList_inj]
    simp
  have hh : "h" = String.singleton 'h' := rfl
  have hV : "V" = String.singleton 'V' := rfl
  simp only [Request.ofShort, named, hshown, hh, hV, heq]

/-- The name of a long option is found again between what surrounds it. -/
theorem takeWhile_dropWhile_long {dashes name value : List Char}
    (hdashes : ∀ c ∈ dashes, c = '-') (hhead : name.head? ≠ some '-') (hname : '=' ∉ name)
    (hvalue : value = [] ∨ ∃ cs, value = '=' :: cs) :
    ((dashes ++ (name ++ value)).dropWhile (· == '-')).takeWhile (· != '=') = name := by
  have hrest : (name ++ value).dropWhile (· == '-') = name ++ value := by
    cases name with
    | nil => rcases hvalue with rfl | ⟨cs, rfl⟩ <;> rfl
    | cons c cs =>
        have hc : c ≠ '-' := by simpa using hhead
        simp [hc]
  have hstop : value.takeWhile (· != '=') = [] := by
    rcases hvalue with rfl | ⟨cs, rfl⟩ <;> rfl
  have hkeep : ∀ c ∈ name, (c != '=') = true := by
    intro c hc
    refine bne_iff_ne.mpr ?_
    rintro rfl
    exact hname hc
  rw [List.dropWhile_append_of_pos (by simpa using hdashes), hrest,
    List.takeWhile_append_of_pos hkeep, hstop, List.append_nil]

theorem optionAsks_long {a : String} {cs : List Char} (ha : a.toList = '-' :: '-' :: cs) :
    OptionAsks a (Request.ofLong cs) := by
  rw [ofLong_eq_named rfl]
  refine .long (cs.takeWhile (· == '-')) _ ((cs.dropWhile (· == '-')).dropWhile (· != '='))
    ?_ ?_ ?_ ?_ ?_
  · rw [ha, List.takeWhile_append_dropWhile, List.takeWhile_append_dropWhile]
  · intro c hc
    exact eq_of_beq (List.all_eq_true.mp List.all_takeWhile c hc)
  · intro hhead
    rw [List.head?_takeWhile, Option.filter_eq_some_iff] at hhead
    have hdash := List.head?_dropWhile_not (· == '-') cs
    rw [hhead.1] at hdash
    cases hdash
  · intro hmem
    have hequals := List.all_eq_true.mp List.all_takeWhile _ hmem
    cases hequals
  · cases hvalue : (cs.dropWhile (· == '-')).dropWhile (· != '=') with
    | nil => exact .inl rfl
    | cons d ds =>
        have hequals := List.head?_dropWhile_not (· != '=') (cs.dropWhile (· == '-'))
        rw [hvalue] at hequals
        obtain rfl : d = '=' := by simpa using hequals
        exact .inr ⟨ds, rfl⟩

/-- What an option is read as is what its text asks for, and nothing else. -/
theorem optionAsks_iff {a : String} {r : Request} :
    OptionAsks a r ↔ Request.ofOption? a = some r := by
  constructor
  · intro h
    cases h with
    | long dashes name value ha hdashes hhead hname hvalue =>
        have hcut := takeWhile_dropWhile_long hdashes hhead hname hvalue
        simp only [Request.ofOption?, ha]
        rw [ofLong_eq_named hcut.symm]
    | short ha hc =>
        rw [← ofShort_eq_named]
        simp only [Request.ofOption?, ha]
  · intro h
    simp only [Request.ofOption?] at h
    split at h
    · next cs ha =>
      obtain rfl := Option.some.inj h
      exact optionAsks_long ha
    · next c others hlong ha =>
      obtain rfl := Option.some.inj h
      rw [ofShort_eq_named]
      exact .short ha hlong
    · cases h

end TokenStream.Command
