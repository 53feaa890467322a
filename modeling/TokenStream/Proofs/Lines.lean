import TokenStream.Command.FileTree
import TokenStream.Command.Lines
import TokenStream.Proofs.Class

/-!
# Lines and texts

A line feed is one byte of one character and part of no other, so a text and its bytes are cut into
lines at the same places. Bytes are therefore a text exactly when each of their lines is one.
-/

namespace TokenStream.Command

open Source

/-! ## Decoding -/

theorem decode?_eq_some_iff {bs : List UInt8} {s : String} :
    decode? bs = some s ↔ bs = bytes s := by
  rw [decode?, String.fromUTF8?, ← List.toByteArray_inj, toByteArray_bytes]
  split
  · next h =>
    rw [Option.some.injEq, ← String.toByteArray_inj]
    exact Iff.rfl
  · next h =>
    refine iff_of_false (by simp) ?_
    intro heq
    exact h (heq ▸ s.isValidUTF8)

theorem decode?_bytes (s : String) : decode? (bytes s) = some s := decode?_eq_some_iff.mpr rfl

theorem isSome_decode?_iff {bs : List UInt8} :
    (decode? bs).isSome = true ↔ ∃ s, bs = bytes s := by
  simp only [Option.isSome_iff_exists, decode?_eq_some_iff]

/-! ## Cutting into lines -/

theorem splitLines_cons (b : UInt8) (bs : List UInt8) :
    splitLines (b :: bs) = consLine b (splitLines bs) := rfl

theorem splitLines_lineFeed_cons (bs : List UInt8) :
    splitLines (lineFeed :: bs) = [lineFeed] :: splitLines bs := by
  rw [splitLines_cons]
  cases splitLines bs with
  | nil => rfl
  | cons line lines => rfl

theorem splitLines_append {line : List UInt8} (h : lineFeed ∉ line) (rest : List UInt8) :
    splitLines (line ++ lineFeed :: rest) = (line ++ [lineFeed]) :: splitLines rest := by
  induction line with
  | nil => exact splitLines_lineFeed_cons rest
  | cons b line ih =>
      rw [List.mem_cons, not_or] at h
      rw [List.cons_append, splitLines_cons, ih h.2, consLine, if_neg (Ne.symm h.1)]
      rfl

/-- Bytes without a line feed in front lengthen the first line. -/
theorem foldr_consLine {bs : List UInt8} (h : lineFeed ∉ bs) (line : List UInt8)
    (lines : List (List UInt8)) :
    bs.foldr consLine (line :: lines) = (bs ++ line) :: lines := by
  induction bs with
  | nil => rfl
  | cons b bs ih =>
      rw [List.mem_cons, not_or] at h
      rw [List.foldr_cons, ih h.2, consLine, if_neg (Ne.symm h.1)]
      rfl

theorem foldr_consLine_nil {bs : List UInt8} (hne : bs ≠ []) (h : lineFeed ∉ bs) :
    bs.foldr consLine [] = [bs] := by
  obtain ⟨cs, b, rfl⟩ := (List.eq_nil_or_concat bs).resolve_left hne
  rw [List.concat_eq_append, List.mem_append, not_or] at h
  rw [List.concat_eq_append, List.foldr_append, List.foldr_cons, List.foldr_nil, consLine,
    foldr_consLine h.1]

/-- Every line with another behind it ends in a line feed. -/
theorem pairwise_splitLines (bs : List UInt8) :
    (splitLines bs).Pairwise fun line _ => line.getLast? = some lineFeed := by
  induction bs with
  | nil => exact List.Pairwise.nil
  | cons b bs ih =>
      rw [splitLines_cons]
      revert ih
      cases splitLines bs with
      | nil =>
          intro _
          exact List.pairwise_singleton _ _
      | cons line lines =>
          intro ih
          rw [consLine]
          split
          · next hb => exact ih.cons fun _ _ => hb ▸ rfl
          · obtain ⟨hline, hlines⟩ := List.pairwise_cons.mp ih
            refine hlines.cons fun line' h => ?_
            have hlast := hline line' h
            cases line with
            | nil => cases hlast
            | cons c line => rwa [List.getLast?_cons_cons]

/-! ## Line feeds in texts -/

theorem byteClass_lineFeed : ByteClass (· == lineFeed) (· == '\n') := by
  refine .of_ascii (by decide) ?_ ?_
  · intro b hb
    rw [beq_iff_eq] at hb
    subst hb
    decide
  · intro c hc
    rw [beq_iff_eq] at hc
    subst hc
    decide

theorem lineFeed_not_mem_bytes {s : String} (h : '\n' ∉ s.toList) : lineFeed ∉ bytes s := by
  have hc : ∀ c ∈ s.toList, (c == '\n') = false := by
    intro c hc
    exact beq_false_of_ne fun heq => h (heq ▸ hc)
  intro hb
  have := byteClass_lineFeed.forall_bytes_iff.mpr hc lineFeed hb
  cases this

theorem getLast?_toList_of_bytes {s : String} (h : (bytes s).getLast? = some lineFeed) :
    s.toList.getLast? = some '\n' := by
  rcases List.eq_nil_or_concat s.toList with hs | ⟨cs, c, hs⟩
  · simp [bytes, hs] at h
  · have hmem : lineFeed ∈ String.utf8EncodeChar c := by
      rw [bytes, hs, List.concat_eq_append, List.flatMap_append, List.flatMap_singleton,
        List.getLast?_append, Option.or_eq_some_iff, List.getLast?_eq_none_iff] at h
      rcases h with h | ⟨hnil, -⟩
      · exact List.mem_of_getLast? h
      · exact absurd hnil (utf8EncodeChar_ne_nil c)
    have hclass := byteClass_lineFeed c lineFeed hmem
    rw [hs, List.concat_eq_append, List.getLast?_concat, beq_iff_eq.mp hclass.symm]

/-- Texts without a line feed, each with one behind it, are the lines of what they make up. -/
theorem splitLines_join {xs : List String} (h : ∀ x ∈ xs, '\n' ∉ x.toList) :
    splitLines (bytes (String.join (xs.map (· ++ "\n")))) = xs.map fun x => bytes (x ++ "\n") := by
  induction xs with
  | nil => simp [splitLines]
  | cons x xs ih =>
      have hx := lineFeed_not_mem_bytes (h x List.mem_cons_self)
      have hxs := ih fun y hy => h y (List.mem_cons_of_mem _ hy)
      have hfeed : bytes "\n" = [lineFeed] := by decide
      rw [List.map_cons, String.join_cons, bytes_append, bytes_append, hfeed, List.append_assoc,
        List.singleton_append, splitLines_append hx, hxs, List.map_cons, bytes_append, hfeed]

/-- The lines of the bytes of a text are bytes of texts. -/
theorem exists_splitLines_bytes (s : String) :
    ∃ lines : List String, splitLines (bytes s) = lines.map bytes := by
  rw [bytes]
  induction s.toList with
  | nil => exact ⟨[], rfl⟩
  | cons c cs ih =>
      obtain ⟨lines, hlines⟩ := ih
      rw [List.flatMap_cons, ← bytes_singleton]
      by_cases hc : c = '\n'
      · subst hc
        have hfeed : bytes (String.singleton '\n') = [lineFeed] := by decide
        refine ⟨"\n" :: lines, ?_⟩
        rw [hfeed, List.singleton_append, splitLines_lineFeed_cons, hlines, ← hfeed]
        rfl
      · have hfeed : lineFeed ∉ bytes (String.singleton c) :=
          lineFeed_not_mem_bytes (by simpa using Ne.symm hc)
        rw [splitLines, List.foldr_append, ← splitLines, hlines]
        cases lines with
        | nil =>
            have hne : bytes (String.singleton c) ≠ [] := by
              rw [bytes_singleton]
              exact utf8EncodeChar_ne_nil c
            exact ⟨[String.singleton c], foldr_consLine_nil hne hfeed⟩
        | cons line lines =>
            refine ⟨(String.singleton c ++ line) :: lines, ?_⟩
            rw [List.map_cons, foldr_consLine hfeed, List.map_cons, bytes_append]

theorem flatten_map_bytes (xs : List String) : (xs.map bytes).flatten = bytes (String.join xs) := by
  induction xs with
  | nil => simp
  | cons x xs ih => rw [List.map_cons, List.flatten_cons, ih, String.join_cons, bytes_append]

/-- Lines that are texts are the bytes of some texts. -/
theorem exists_eq_map_bytes {lines : List (List UInt8)}
    (h : ∀ line ∈ lines, (decode? line).isSome = true) :
    ∃ xs : List String, lines = xs.map bytes := by
  induction lines with
  | nil => exact ⟨[], rfl⟩
  | cons line lines ih =>
      obtain ⟨x, rfl⟩ := isSome_decode?_iff.mp (h line List.mem_cons_self)
      obtain ⟨xs, rfl⟩ := ih fun line' hline => h line' (List.mem_cons_of_mem _ hline)
      exact ⟨x :: xs, rfl⟩

/-- Bytes are a text exactly when all their lines are. -/
theorem isSome_decode?_iff_forall_lines {bs : List UInt8} :
    (decode? bs).isSome = true ↔ ∀ line ∈ splitLines bs, (decode? line).isSome = true := by
  constructor
  · intro h
    obtain ⟨s, rfl⟩ := isSome_decode?_iff.mp h
    obtain ⟨lines, hlines⟩ := exists_splitLines_bytes s
    intro line hline
    rw [hlines] at hline
    obtain ⟨x, -, rfl⟩ := List.mem_map.mp hline
    rw [decode?_bytes, Option.isSome_some]
  · intro h
    obtain ⟨xs, hxs⟩ := exists_eq_map_bytes h
    apply isSome_decode?_iff.mpr
    refine ⟨String.join xs, ?_⟩
    rw [← flatten_map_bytes, ← hxs, flatten_splitLines]

end TokenStream.Command
