import TokenStream.Proofs.Concatenation
import TokenStream.Proofs.Lines
import TokenStream.Proofs.Quoted
import TokenStream.Proofs.Stream

/-!
# Printed tokens

A dump is read back line by line: up to the parenthesis stands the name of a kind, which settles
the kind, and behind it a quoted text. So a dump shows all of its tokens but the spans, and a
source that has the same tokens with single spaces between them has the same dump.
-/

namespace TokenStream

open Source Command

/-! ## Lines -/

/-- What a token shows when it is printed: all but its span. -/
def Token.shown (t : Token) : Kind × String := (t.kind, t.text)

/-- A token as it stands in a dump, the line feed included. -/
def Token.line (t : Token) : List UInt8 := bytes (t.display ++ "\n")

theorem Kind.not_mem_name {k : Kind} {c : Char} (hc : c.isAlpha = false) :
    c ∉ k.name.toList := by
  intro h
  rw [isAlpha_of_mem_name h] at hc
  cases hc

theorem Token.toList_display (t : Token) :
    t.display.toList =
      t.kind.name.toList ++ '(' :: '"' :: (Quoted.encode t.text.toList ++ ['"', ')']) := by
  simp [display, Quoted.toList_quote]

theorem Token.newline_not_mem_display (t : Token) : '\n' ∉ t.display.toList := by
  have hname : '\n' ∉ t.kind.name.toList := Kind.not_mem_name (by decide)
  have htext := Quoted.newline_not_mem_encode t.text.toList
  simp [toList_display, hname, htext]

theorem Token.space_not_mem_display {t : Token} (h : ' ' ∉ t.text.toList) :
    ' ' ∉ t.display.toList := by
  have hname : ' ' ∉ t.kind.name.toList := Kind.not_mem_name (by decide)
  have htext := Quoted.space_not_mem_encode h
  simp [toList_display, hname, htext]

/-- A dump has one line for each token. -/
theorem splitLines_dump (s : String) : splitLines (bytes (dump s)) = (tokens s).map Token.line := by
  have h : ∀ x ∈ dumpLines s, '\n' ∉ x.toList := by
    intro x hx
    obtain ⟨t, -, rfl⟩ := List.mem_map.mp hx
    exact t.newline_not_mem_display
  rw [dump, splitLines_join h, dumpLines, List.map_map]
  rfl

/-! ## Reading them back -/

/-- Reads a printed token with the line feed behind it. -/
def readToken? (cs : List Char) : Option (Kind × String) :=
  match cs.dropWhile (· ≠ '(') with
  | '(' :: '"' :: rest =>
    match Kind.ofName? (String.ofList (cs.takeWhile (· ≠ '('))), Quoted.read? rest with
    | some k, some (text, [')', '\n']) => some (k, String.ofList text)
    | _, _ => none
  | _ => none

def readLine? (line : List UInt8) : Option (Kind × String) :=
  (decode? line).bind fun s => readToken? s.toList

/-- Reads a dump back, as the kinds and texts of its tokens. -/
def readDump? (output : String) : Option (List (Kind × String)) :=
  (splitLines (bytes output)).mapM readLine?

theorem readLine?_line (t : Token) : readLine? t.line = some t.shown := by
  have hne : ∀ c ∈ t.kind.name.toList, decide (c ≠ '(') = true := by
    intro c hc
    exact decide_eq_true fun heq => Kind.not_mem_name (by decide) (heq ▸ hc)
  have hread := Quoted.read?_encode t.text.toList [')', '\n']
  simp only [readLine?, Token.line, decode?_bytes, Option.bind_some, readToken?,
    String.toList_append, Token.toList_display, List.append_assoc, List.cons_append,
    List.takeWhile_append_of_pos hne, List.dropWhile_append_of_pos hne]
  simp [hread, Kind.ofName?_name, Token.shown]

theorem readDump?_dump (s : String) : readDump? (dump s) = some ((tokens s).map Token.shown) := by
  rw [readDump?, splitLines_dump]
  induction tokens s with
  | nil => rfl
  | cons t ts ih => rw [List.map_cons, List.mapM_cons, readLine?_line, ih]; rfl

/-! ## What a dump shows -/

theorem dump_eq_of_shown {s s' : String}
    (h : (tokens s).map Token.shown = (tokens s').map Token.shown) : dump s = dump s' := by
  have hlines (r : String) : dumpLines r = ((tokens r).map Token.shown).map fun p =>
      p.1.name ++ "(" ++ Quoted.quote p.2 ++ ")" := by
    rw [List.map_map]
    rfl
  rw [dump, dump, hlines, hlines, h]

theorem dump_eq_iff {s s' : String} :
    dump s = dump s' ↔ (tokens s).map Token.shown = (tokens s').map Token.shown := by
  constructor
  · intro h
    have hread := readDump?_dump s
    rw [h, readDump?_dump, Option.some.injEq] at hread
    exact hread.symm
  · exact dump_eq_of_shown

/-! ## Texts with single spaces between them -/

theorem isBlankText_space : IsBlankText " " := by
  intro c hc
  rw [List.mem_singleton.mp hc]
  rfl

theorem exists_reads_spaced {ts : List Token} (h : ∀ t ∈ ts, IsLexeme t.kind t.text) (o : Nat) :
    ∃ us, Reads o (" ".intercalate (ts.map Token.text ++ [""])) us ∧
      us.map Token.shown = ts.map Token.shown := by
  induction ts generalizing o with
  | nil => exact ⟨[], .stop (by simpa using isBlankText_empty), rfl⟩
  | cons t ts ih =>
      have hlex := h t List.mem_cons_self
      obtain ⟨us, hus, hshown⟩ :=
        ih (fun u hu => h u (List.mem_cons_of_mem _ hu)) (o + t.text.utf8ByteSize + 1)
      have hrest := hus.blank_append (w := " ") isBlankText_space
      have hmax : ¬Continues t.text (" " ++ " ".intercalate (ts.map Token.text ++ [""])) :=
        not_continues_of_isWhitespace (c := ' ') (by rw [String.toList_append]; rfl) rfl
      have hstep := Reads.step isBlankText_empty hlex hmax hrest
      rw [String.empty_append, ← String.append_assoc,
        ← String.intercalate_cons_of_ne_nil (by simp)] at hstep
      refine ⟨_, hstep, ?_⟩
      rw [List.map_cons, List.map_cons, hshown]
      rfl

theorem dump_intercalate_texts (s : String) :
    dump (" ".intercalate ((tokens s).map Token.text)) = dump s := by
  obtain ⟨ts, hts⟩ := exists_reads 0 s
  have hlex : ∀ t ∈ ts, IsLexeme t.kind t.text := by
    intro t ht
    obtain ⟨_, _, -, -, hlex, -⟩ := hts.exists_append ht
    exact hlex
  obtain ⟨us, hus, hshown⟩ := exists_reads_spaced hlex 0
  apply dump_eq_of_shown
  rw [tokens_eq_of_reads hts, List.map_append]
  simp only [List.map_cons, List.map_nil, Token.eof]
  rw [tokens_eq_of_reads hus, List.map_append, List.map_append, hshown]
  rfl

/-- A dump has one line for each token and can be read back but for the spans. So dumps are equal
exactly when they show the same, and the texts shown have the same dump again when they are scanned
with single spaces between them. -/
theorem dump_readable :
    (∀ s, splitLines (bytes (dump s)) = (tokens s).map Token.line) ∧
      (∀ s, readDump? (dump s) = some ((tokens s).map Token.shown)) ∧
      (∀ s s', dump s = dump s' ↔
        (tokens s).map Token.shown = (tokens s').map Token.shown) ∧
      ∀ s, ∃ shown, readDump? (dump s) = some shown ∧
        dump (" ".intercalate (shown.map Prod.snd)) = dump s := by
  refine ⟨splitLines_dump, readDump?_dump, fun s s' => dump_eq_iff, fun s => ?_⟩
  refine ⟨_, readDump?_dump s, ?_⟩
  rw [List.map_map]
  exact dump_intercalate_texts s

end TokenStream
