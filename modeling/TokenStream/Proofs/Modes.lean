import TokenStream.Command.Run
import TokenStream.Proofs.Printed

/-!
# Files and prompts

A file is dumped as a whole, and standard input line by line, each line with an end token of its
own. No token lies across a line feed, so both print the same lines but for the end tokens. They
differ where bytes are not a text: a file is then not dumped at all, while standard input is read up
to the first line that is none.
-/

namespace TokenStream

open Source Command

/-! ## Tokens at a line feed -/

/-- No token ends behind a blank, so none merges with what comes after one. -/
theorem Reads.not_merges_of_getLast? {a b : String} {ts : List Token} {c : Char}
    (h : Reads 0 a ts) (hlast : a.toList.getLast? = some c) (hc : c.isWhitespace = true) :
    ¬Merges ts a.utf8ByteSize b := by
  rintro ⟨t, ht, hcut, -⟩
  obtain ⟨u, v, rfl, hspan, hlex, -⟩ := h.exists_append (List.mem_of_getLast? ht)
  rw [hspan] at hcut
  simp only [String.utf8ByteSize_append] at hcut
  have hv : v = "" := String.utf8ByteSize_eq_zero_iff.mp (by omega)
  obtain ⟨d, cs, htext⟩ := hlex.exists_cons
  rw [hv, String.append_empty, String.toList_append, List.getLast?_append,
    Option.or_eq_some_iff, List.getLast?_eq_none_iff, htext] at hlast
  rcases hlast with hlast | ⟨hnil, -⟩
  · have hblank := hlex.isWhitespace_eq_false c (htext ▸ List.mem_of_getLast? hlast)
    rw [hc] at hblank
    cases hblank
  · cases hnil

theorem Reads.append_of_getLast? {a b : String} {ts us : List Token} {c : Char}
    (ha : Reads 0 a ts) (hb : Reads 0 b us) (hlast : a.toList.getLast? = some c)
    (hc : c.isWhitespace = true) :
    Reads 0 (a ++ b) (ts ++ us.map (Token.shift a.utf8ByteSize)) := by
  have hmerges := ha.not_merges_of_getLast? (b := b) hlast hc
  have hiff := reads_append_iff_not_merges ha (hb.shift a.utf8ByteSize)
  rw [Nat.zero_add] at hiff
  exact hiff.mpr hmerges

/-! ## Lines of a dump -/

/-- The line of an end token. -/
def endLine : List UInt8 := bytes "Eof(\"\")\n"

/-- The lines of a dump apart from those of end tokens. -/
def lexemeLines (s : String) : List (List UInt8) :=
  ((tokens s).map Token.line).filter fun line => line != endLine

theorem line_eof (n : Nat) : (Token.eof n).line = endLine := rfl

theorem IsLexeme.line_ne_endLine {t : Token} (h : IsLexeme t.kind t.text) : t.line ≠ endLine := by
  intro heq
  have hread := readLine?_line t
  rw [heq, ← line_eof 0, readLine?_line, Option.some.injEq] at hread
  exact h.kind_ne_eof (congrArg Prod.fst hread).symm

theorem Reads.map_line_tokens {s : String} {ts : List Token} (h : Reads 0 s ts) :
    (tokens s).map Token.line = ts.map Token.line ++ [endLine] := by
  rw [tokens_eq_of_reads h, List.map_append]
  rfl

theorem Reads.line_ne_endLine {s : String} {ts : List Token} (h : Reads 0 s ts) :
    ∀ line ∈ ts.map Token.line, line ≠ endLine := by
  intro line hline
  obtain ⟨t, ht, rfl⟩ := List.mem_map.mp hline
  obtain ⟨_, _, -, -, hlex, -⟩ := h.exists_append ht
  exact hlex.line_ne_endLine

theorem Reads.lexemeLines_eq {s : String} {ts : List Token} (h : Reads 0 s ts) :
    lexemeLines s = ts.map Token.line := by
  have hkeep : (ts.map Token.line).filter (fun line => line != endLine) = ts.map Token.line := by
    apply List.filter_eq_self.mpr
    intro line hline
    exact bne_iff_ne.mpr (h.line_ne_endLine line hline)
  rw [lexemeLines, h.map_line_tokens, List.filter_append, hkeep]
  simp

theorem count_endLine (s : String) : ((tokens s).map Token.line).count endLine = 1 := by
  obtain ⟨ts, hts⟩ := exists_reads 0 s
  have hnone : (ts.map Token.line).count endLine = 0 :=
    List.count_eq_zero.mpr fun hmem => hts.line_ne_endLine endLine hmem rfl
  rw [hts.map_line_tokens, List.count_append, hnone, List.count_singleton_self]

theorem lexemeLines_append {a : String} (ha : a.toList.getLast? = some '\n') (b : String) :
    lexemeLines (a ++ b) = lexemeLines a ++ lexemeLines b := by
  obtain ⟨ts, hts⟩ := exists_reads 0 a
  obtain ⟨us, hus⟩ := exists_reads 0 b
  rw [(hts.append_of_getLast? hus ha rfl).lexemeLines_eq, hts.lexemeLines_eq, hus.lexemeLines_eq,
    List.map_append, List.map_map]
  rfl

theorem lexemeLines_empty : lexemeLines "" = [] :=
  (Reads.stop (o := 0) isBlankText_empty).lexemeLines_eq

/-- Texts that all but the last end in a line feed print the same lines together as apart. -/
theorem lexemeLines_join {xs : List String}
    (h : xs.Pairwise fun x _ => x.toList.getLast? = some '\n') :
    lexemeLines (String.join xs) = xs.flatMap lexemeLines := by
  induction xs with
  | nil => exact lexemeLines_empty
  | cons x xs ih =>
      obtain ⟨hx, hxs⟩ := List.pairwise_cons.mp h
      rw [String.join_cons, List.flatMap_cons, ← ih hxs]
      cases xs with
      | nil => rw [String.join_nil, String.append_empty, lexemeLines_empty, List.append_nil]
      | cons y ys => exact lexemeLines_append (hx y List.mem_cons_self) _

theorem splitLines_join_dump (xs : List String) :
    splitLines (bytes (String.join (xs.map dump))) =
      xs.flatMap fun x => (tokens x).map Token.line := by
  have hjoin : String.join (xs.map dump) =
      String.join ((xs.flatMap dumpLines).map (· ++ "\n")) := by
    induction xs with
    | nil => rfl
    | cons x xs ih =>
        rw [List.map_cons, String.join_cons, ih, List.flatMap_cons, List.map_append,
          String.join_append, dump]
  have hfeed : ∀ x ∈ xs.flatMap dumpLines, '\n' ∉ x.toList := by
    intro x hx
    obtain ⟨y, -, hy⟩ := List.mem_flatMap.mp hx
    obtain ⟨t, -, rfl⟩ := List.mem_map.mp hy
    exact t.newline_not_mem_display
  rw [hjoin, splitLines_join hfeed, List.map_flatMap]
  simp only [dumpLines, List.map_map]
  rfl

end TokenStream

namespace TokenStream.Command

open Source

/-! ## The two ways to run the command -/

/-- The lines up to the first that is not a text. -/
def validLines (bs : List UInt8) : List (List UInt8) :=
  (splitLines bs).takeWhile fun line => (decode? line).isSome

/-- What is printed for a line that is a text. -/
def dumpOfLine (line : List UInt8) : String := (decode? line).elim "" dump

/-- The lines that a run of the command prints. -/
def Output.lines (out : Output) : List (List UInt8) := splitLines (bytes out.stdout)

/-- A prompt stands before each line that is dumped, and one more behind them all. -/
theorem join_converse (prompt : String) (lines : List (List UInt8)) :
    String.join (converse prompt lines) =
      String.join ((lines.takeWhile fun line => (decode? line).isSome).map
        fun line => prompt ++ dumpOfLine line) ++ prompt := by
  induction lines with
  | nil => simp [converse]
  | cons line lines ih =>
      cases h : decode? line with
      | none => simp [converse, h]
      | some s => simp [converse, h, ih, dumpOfLine, String.append_assoc]

theorem run_prompt {arguments : List String} {env : Environment}
    (hprompt : Request.ofArguments arguments = .prompt)
    (hterm : env.term.toLower ∉ plainTerminals) :
    run arguments env = { stdout := String.join ((validLines env.stdin).map dumpOfLine) } := by
  have hempty : promptFor env.term = "" := if_neg hterm
  rw [run_of_prompt hprompt, dumpLinesOf, hempty, join_converse]
  simp only [String.empty_append, String.append_empty]
  rfl

theorem exists_validLines (bs : List UInt8) :
    ∃ xs : List String, validLines bs = xs.map bytes ∧
      xs.Pairwise fun x _ => x.toList.getLast? = some '\n' := by
  have hvalid : ∀ line ∈ validLines bs, (decode? line).isSome = true :=
    List.all_eq_true.mp List.all_takeWhile
  obtain ⟨xs, hxs⟩ := exists_eq_map_bytes hvalid
  refine ⟨xs, hxs, ?_⟩
  have hpair : (validLines bs).Pairwise fun line _ => line.getLast? = some lineFeed :=
    (pairwise_splitLines bs).sublist (List.takeWhile_sublist _)
  rw [hxs, List.pairwise_map] at hpair
  exact hpair.imp getLast?_toList_of_bytes

theorem validLines_eq_iff (bs : List UInt8) :
    validLines bs = splitLines bs ↔ (decode? bs).isSome = true := by
  rw [isSome_decode?_iff_forall_lines, validLines]
  constructor
  · intro h line hline
    rw [← h] at hline
    exact List.all_eq_true.mp List.all_takeWhile line hline
  · intro h
    rw [← List.append_nil (splitLines bs), List.takeWhile_append_of_pos h, List.takeWhile_nil]

/-- What is printed for standard input, line by line. -/
theorem lines_run_prompt {arguments : List String} {env : Environment} {xs : List String}
    (hprompt : Request.ofArguments arguments = .prompt)
    (hterm : env.term.toLower ∉ plainTerminals) (hxs : validLines env.stdin = xs.map bytes) :
    (run arguments env).lines = xs.flatMap fun x => (tokens x).map Token.line := by
  have hdump : (validLines env.stdin).map dumpOfLine = xs.map dump := by
    rw [hxs, List.map_map]
    apply List.map_congr_left
    intro x _
    simp only [Function.comp_apply, dumpOfLine, decode?_bytes, Option.elim_some]
  rw [Output.lines, run_prompt hprompt hterm, hdump, splitLines_join_dump]

/-- There is one end token for each line that is dumped. -/
theorem count_endLine_lines {arguments : List String} {env : Environment}
    (hprompt : Request.ofArguments arguments = .prompt)
    (hterm : env.term.toLower ∉ plainTerminals) :
    (run arguments env).lines.count endLine = (validLines env.stdin).length := by
  obtain ⟨xs, hxs, -⟩ := exists_validLines env.stdin
  rw [lines_run_prompt hprompt hterm hxs, hxs, List.count_flatMap, List.length_map]
  simp [Function.comp_def, count_endLine, List.map_const']

/-- Standard input is printed like a file of its lines up to the first that is not a text. -/
theorem prompt_agrees_with_file {name : String} (env valid whole : Environment)
    (hname : Request.ofArguments [name] = .file name)
    (hterm : env.term.toLower ∉ plainTerminals)
    (hvalid : valid.files.read name = .ok (validLines env.stdin).flatten)
    (hwhole : whole.files.read name = .ok env.stdin) :
    ((decode? env.stdin).isSome = true ↔ validLines env.stdin = splitLines env.stdin) ∧
      ((run [] env).lines.filter (· != endLine) =
          (run [name] valid).lines.filter (· != endLine) ∧
        (run [] env).lines.count endLine = (validLines env.stdin).length ∧
        (run [name] valid).lines.count endLine = 1) ∧
      (decode? env.stdin = none →
        ((run [name] whole).code = 1 ∧ (run [name] whole).stdout = "") ∧
        (run [] env).code = 0 ∧
        (run [] env).stdout = String.join ((validLines env.stdin).map dumpOfLine)) := by
  obtain ⟨xs, hxs, hpair⟩ := exists_validLines env.stdin
  have hprompt : Request.ofArguments [] = .prompt := rfl
  have hlines := lines_run_prompt hprompt hterm hxs
  have hfile : (run [name] valid).lines = (tokens (String.join xs)).map Token.line := by
    rw [hxs, flatten_map_bytes] at hvalid
    rw [run_of_file hname, hvalid]
    simp only [dumpFile, decode?_bytes, Output.lines, splitLines_dump]
  refine ⟨(validLines_eq_iff _).symm, ⟨?_, ?_, ?_⟩, fun hnone => ⟨?_, ?_, ?_⟩⟩
  · have hjoin := lexemeLines_join hpair
    rw [hlines, hfile, List.filter_flatMap]
    exact hjoin.symm
  · exact count_endLine_lines hprompt hterm
  · rw [hfile, count_endLine]
  · rw [run_of_file hname, hwhole]
    simp [dumpFile, hnone, Output.ofFailure]
  · rw [run_prompt hprompt hterm]
  · rw [run_prompt hprompt hterm]

/-- The bytes of `x 1`, a carriage return and a line feed, of a broken line, and of `y`. -/
def brokenInput : List UInt8 := [0x78, 0x20, 0x31, 0x0d, 0x0a, 0xc3, 0x0a, 0x79]

/-- A directory with one file, named `f`. -/
def oneFile (content : List UInt8) : FileTree := { files := [(["f"], content)] }

theorem read_oneFile (content : List UInt8) : (oneFile content).read "f" = .ok content := by
  have hstart : "f".startsWith "/" = false := by decide +kernel
  have hsplit : "f".splitOn "/" = ["f"] := by
    rw [String.splitOn, if_neg (by decide), String.splitOnAux, if_neg (by decide +kernel),
      if_neg (by decide +kernel), String.splitOnAux, if_pos (by decide +kernel)]
    decide +kernel
  rw [FileTree.read, hstart, hsplit]
  rfl

theorem prompt_agrees_with_file_broken :
    let env : Environment := { stdin := brokenInput }
    let valid : Environment := { files := oneFile [0x78, 0x20, 0x31, 0x0d, 0x0a] }
    let whole : Environment := { files := oneFile brokenInput }
    (validLines brokenInput).flatten = [0x78, 0x20, 0x31, 0x0d, 0x0a] ∧
      decode? brokenInput = none ∧
      (run [] env).lines.filter (· != endLine) = (run ["f"] valid).lines.filter (· != endLine) ∧
      ((run ["f"] whole).code = 1 ∧ (run ["f"] whole).stdout = "") ∧ (run [] env).code = 0 := by
  intro env valid whole
  have hlines : (validLines brokenInput).flatten = [0x78, 0x20, 0x31, 0x0d, 0x0a] := by
    decide +kernel
  have hbroken : decode? brokenInput = none := by decide +kernel
  have hvalid : valid.files.read "f" = .ok (validLines env.stdin).flatten := by
    rw [hlines]
    exact read_oneFile _
  have hwhole : whole.files.read "f" = .ok env.stdin := read_oneFile brokenInput
  obtain ⟨-, ⟨hsame, -, -⟩, hfail⟩ :=
    prompt_agrees_with_file env valid whole (by decide +kernel) (by decide +kernel) hvalid hwhole
  exact ⟨hlines, hbroken, hsame, (hfail hbroken).1, (hfail hbroken).2.1⟩

end TokenStream.Command
