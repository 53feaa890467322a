import TokenStream.Source

/-!
# The bytes of a text

A text is read by offset through the list of its bytes. Both accessors and runs are functions of
that list, and what lies between two boundaries of a source is found again from its two sides.
-/

namespace TokenStream.Source

def bytes (s : String) : List UInt8 := s.toList.flatMap String.utf8EncodeChar

/-! ## The view -/

@[simp] theorem bytes_empty : bytes "" = [] := by simp [bytes]

@[simp] theorem bytes_append (s t : String) : bytes (s ++ t) = bytes s ++ bytes t := by
  simp [bytes]

@[simp] theorem bytes_singleton (c : Char) :
    bytes (String.singleton c) = String.utf8EncodeChar c := by
  simp [bytes]

theorem toByteArray_bytes (s : String) : (bytes s).toByteArray = s.toByteArray := by
  rw [← String.utf8Encode_toList, List.utf8Encode, bytes]

@[simp] theorem length_bytes (s : String) : (bytes s).length = s.utf8ByteSize := by
  rw [← List.size_toByteArray, toByteArray_bytes, String.size_toByteArray]

theorem bytes_inj {s t : String} : bytes s = bytes t ↔ s = t := by
  rw [← List.toByteArray_inj, toByteArray_bytes, toByteArray_bytes, String.toByteArray_inj]

theorem append_inj {s t s' t' : String} (h : s ++ t = s' ++ t')
    (hs : s.utf8ByteSize = s'.utf8ByteSize) : s = s' ∧ t = t' := by
  have hb : bytes s ++ bytes t = bytes s' ++ bytes t' := by
    rw [← bytes_append, ← bytes_append, h]
  have hl : (bytes s).length = (bytes s').length := by rw [length_bytes, length_bytes, hs]
  obtain ⟨h₁, h₂⟩ := List.append_inj hb hl
  exact ⟨bytes_inj.mp h₁, bytes_inj.mp h₂⟩

/-- Two ways to cut a text differ by what lies between the cuts. -/
theorem exists_of_append_eq_append {s t s' t' : String} (h : s ++ t = s' ++ t') :
    (∃ u, s' = s ++ u ∧ t = u ++ t') ∨ ∃ u, s = s' ++ u ∧ t' = u ++ t := by
  have hlist := congrArg String.toList h
  rw [String.toList_append, String.toList_append, List.append_eq_append_iff] at hlist
  rcases hlist with ⟨cs, hs, ht⟩ | ⟨cs, hs, ht⟩
  · left
    refine ⟨String.ofList cs, ?_, ?_⟩
    · rw [← String.toList_inj, hs, String.toList_append, String.toList_ofList]
    · rw [← String.toList_inj, ht, String.toList_append, String.toList_ofList]
  · right
    refine ⟨String.ofList cs, ?_, ?_⟩
    · rw [← String.toList_inj, hs, String.toList_append, String.toList_ofList]
    · rw [← String.toList_inj, ht, String.toList_append, String.toList_ofList]

/-! ## Reading through the view -/

theorem byte?_eq_getElem? (s : String) (i : Nat) : byte? s i = (bytes s)[i]? := by
  simp only [byte?]
  split
  · next h =>
      rw [List.getElem?_eq_getElem (by simpa using h), String.getUTF8Byte]
      simp [← toByteArray_bytes]
  · next h => rw [List.getElem?_eq_none (by simpa using h)]

theorem byte?_append_left {s t : String} {i : Nat} (h : i < s.utf8ByteSize) :
    byte? (s ++ t) i = byte? s i := by
  rw [byte?_eq_getElem?, byte?_eq_getElem?, bytes_append,
    List.getElem?_append_left (by simpa using h)]

theorem byte?_append_right (s t : String) (i : Nat) :
    byte? (s ++ t) (s.utf8ByteSize + i) = byte? t i := by
  rw [byte?_eq_getElem?, byte?_eq_getElem?, bytes_append,
    List.getElem?_append_right (by simp), length_bytes, Nat.add_sub_cancel_left]

theorem byte?_append_end (s t : String) : byte? (s ++ t) s.utf8ByteSize = byte? t 0 :=
  byte?_append_right s t 0

theorem runEnd_eq_add_length (p : UInt8 → Bool) (s : String) (i : Nat) :
    runEnd p s i = i + (((bytes s).drop i).takeWhile p).length := by
  fun_induction runEnd p s i with
  | case1 i b hb hp ih =>
      rw [byte?_eq_getElem?] at hb
      rw [List.drop_eq_getElem?_toList_append, hb]
      simp [hp, ih]; omega
  | case2 i b hb hp =>
      rw [byte?_eq_getElem?] at hb
      rw [List.drop_eq_getElem?_toList_append, hb]
      simp [hp]
  | case3 i h =>
      rw [byte?_eq_getElem?, List.getElem?_eq_none_iff] at h
      simp [List.drop_eq_nil_of_le h]

theorem runEnd_append {p : UInt8 → Bool} {s t u : String} (ht : ∀ b ∈ bytes t, p b = true)
    (hu : ∀ b, byte? u 0 = some b → p b = false) :
    runEnd p (s ++ (t ++ u)) s.utf8ByteSize = s.utf8ByteSize + t.utf8ByteSize := by
  have hnil : (bytes u).takeWhile p = [] := by
    cases hb : bytes u with
    | nil => rfl
    | cons b bs =>
        have hp := hu b (by rw [byte?_eq_getElem?, hb]; rfl)
        simp [hp]
  have hdrop : (bytes (s ++ (t ++ u))).drop s.utf8ByteSize = bytes t ++ bytes u := by
    rw [bytes_append, bytes_append, ← length_bytes, List.drop_left]
  rw [runEnd_eq_add_length, hdrop, List.takeWhile_append_of_pos ht, hnil, List.append_nil,
    length_bytes]

/-! ## Boundaries -/

theorem isBoundary_append (s t : String) : IsBoundary (s ++ t) s.utf8ByteSize :=
  String.Pos.Raw.isValid_rawEndPos.append_right t

theorem IsBoundary.le {s : String} {i : Nat} (h : IsBoundary s i) : i ≤ s.utf8ByteSize :=
  h.le_rawEndPos

/-- A boundary is where a source can be cut in two. -/
theorem isBoundary_iff {s : String} {i : Nat} :
    IsBoundary s i ↔ ∃ p r, s = p ++ r ∧ i = p.utf8ByteSize := by
  constructor
  · intro h
    obtain ⟨cs, ds, hcs, hs⟩ := String.Pos.Raw.IsValid.exists h
    refine ⟨String.ofList cs, String.ofList ds, by rw [← hs, String.ofList_append], ?_⟩
    have hsize := congrArg ByteArray.size hcs
    rw [ByteArray.size_extract, String.size_toByteArray, Nat.min_eq_left h.le] at hsize
    rw [← String.size_toByteArray, String.toByteArray_ofList, hsize]
    rfl
  · rintro ⟨p, r, rfl, rfl⟩
    exact isBoundary_append p r

theorem pos?_append {s t u : String} (h : u = s ++ t) :
    ∃ q : u.Pos, u.pos? ⟨s.utf8ByteSize⟩ = some q ∧ q.Splits s t := by
  subst h
  have hv : String.Pos.Raw.IsValidForSlice (s ++ t).toSlice ⟨s.utf8ByteSize⟩ :=
    (isBoundary_append s t).toSlice
  refine ⟨_, ?_, String.Pos.splits_append_rawEndPos⟩
  rw [String.pos?, String.Slice.pos?,
    dif_pos (String.Pos.Raw.isValidForSlice_eq_true_iff.mpr hv)]
  rfl

theorem char?_append (s t : String) (c : Char) :
    char? (s ++ (String.singleton c ++ t)) s.utf8ByteSize = some c := by
  obtain ⟨q, hq, hs⟩ := pos?_append (s := s) (t := String.singleton c ++ t) rfl
  have hne := hs.ne_endPos_of_singleton
  have hc := congrArg String.toList (hs.eq_right (q.splits_next_right hne))
  simp only [String.toList_append, String.toList_singleton, List.singleton_append,
    List.cons.injEq] at hc
  rw [char?, hq, Option.bind_some, String.Pos.get?_eq_some_get hne, ← hc.1]

theorem slice?_append (s t u : String) :
    slice? (s ++ (t ++ u)) s.utf8ByteSize (s.utf8ByteSize + t.utf8ByteSize) = some t := by
  obtain ⟨q, hq, hs⟩ := pos?_append (s := s) (t := t ++ u) rfl
  obtain ⟨q', hq', hs'⟩ := pos?_append (s := s ++ t) (t := u) String.append_assoc.symm
  rw [String.utf8ByteSize_append] at hq'
  have hle : q ≤ q' := by
    simp [String.Pos.le_iff, String.Pos.Raw.le_iff, hs.offset_eq_rawEndPos,
      hs'.offset_eq_rawEndPos]
  simp only [slice?, hq, hq', hle, if_true, Option.some.injEq]
  rw [← String.toByteArray_inj, String.toByteArray_extract, hs.offset_eq_rawEndPos,
    hs'.offset_eq_rawEndPos]
  have h := ByteArray.extract_append_size_add (a := s.toByteArray) (i := 0)
    (j := t.toByteArray.size) (b := t.toByteArray ++ u.toByteArray)
  rw [Nat.add_zero, ByteArray.extract_append_size_left] at h
  simpa [← String.size_toByteArray] using h

end TokenStream.Source
