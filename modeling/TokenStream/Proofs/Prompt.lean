import Mathlib.Data.List.Infix
import TokenStream.Proofs.Modes

/-!
# Prompts between dumps

On some terminals a prompt is written before each attempt to read a line. Printed tokens hold no
space, whatever the lines hold, so nothing that is printed can be taken for a prompt or join with
one: the prompts can be told from the dumps and counted, and without them the output is what other
terminals get.
-/

namespace TokenStream

/-! ## Spaces -/

/-- Nothing that is printed for a token of a source holds a space. -/
theorem space_not_mem_display_of_mem_tokens {s : String} {t : Token} (ht : t ∈ tokens s) :
    ' ' ∉ t.display.toList := by
  obtain ⟨ts, hts⟩ := exists_reads 0 s
  rw [tokens_eq_of_reads hts] at ht
  apply Token.space_not_mem_display
  intro hspace
  rcases List.mem_append.mp ht with ht | ht
  · obtain ⟨_, _, -, -, hlex, -⟩ := hts.exists_append ht
    have hblank := hlex.isWhitespace_eq_false ' ' hspace
    cases hblank
  · rw [List.mem_singleton.mp ht] at hspace
    cases hspace

theorem space_not_mem_dump (s : String) : ' ' ∉ (dump s).toList := by
  intro h
  rw [dump, dumpLines, List.map_map, String.toList_join] at h
  obtain ⟨line, hline, hspace⟩ := List.mem_flatMap.mp h
  obtain ⟨t, ht, rfl⟩ := List.mem_map.mp hline
  rw [Function.comp_apply, String.toList_append, List.mem_append] at hspace
  rcases hspace with hspace | hspace
  · exact space_not_mem_display_of_mem_tokens ht hspace
  · revert hspace
    decide

end TokenStream

namespace TokenStream.Command

/-! ## Finding prompts -/

/-- How often a prompt stands in a text. -/
def promptCount (cs : List Char) : Nat := cs.tails.countP fun ds => ['$', ' '].isPrefixOf ds

/-- A text without the prompts in it. -/
def withoutPrompts : List Char → List Char
  | '$' :: ' ' :: cs => withoutPrompts cs
  | c :: cs => c :: withoutPrompts cs
  | [] => []

variable {c : Char} {cs ds : List Char}

theorem promptCount_prompt (cs : List Char) :
    promptCount ('$' :: ' ' :: cs) = promptCount cs + 1 := by
  simp [promptCount]

theorem promptCount_cons (h : cs.head? ≠ some ' ') : promptCount (c :: cs) = promptCount cs := by
  have hno : ['$', ' '].isPrefixOf (c :: cs) = false := by
    cases cs with
    | nil => simp [List.isPrefixOf]
    | cons d cs =>
        have hd : ' ' ≠ d := fun heq => h (by rw [← heq]; rfl)
        simp [List.isPrefixOf, hd]
  simp [promptCount, hno]

theorem withoutPrompts_cons (h : cs.head? ≠ some ' ') :
    withoutPrompts (c :: cs) = c :: withoutPrompts cs := by
  rw [withoutPrompts]
  rintro ds - rfl
  exact h rfl

/-- Text without spaces has no prompt in it, and makes none with what comes behind it. -/
theorem append_of_space_not_mem (hcs : ' ' ∉ cs) (hds : ds.head? ≠ some ' ') :
    promptCount (cs ++ ds) = promptCount ds ∧
      withoutPrompts (cs ++ ds) = cs ++ withoutPrompts ds := by
  induction cs with
  | nil => exact ⟨rfl, rfl⟩
  | cons c cs ih =>
      rw [List.mem_cons, not_or] at hcs
      obtain ⟨hcount, hwithout⟩ := ih hcs.2
      have hhead : (cs ++ ds).head? ≠ some ' ' := by
        cases cs with
        | nil => exact hds
        | cons d cs =>
            intro heq
            rw [List.cons_append, List.head?_cons, Option.some.injEq] at heq
            exact hcs.2 (heq ▸ List.mem_cons_self)
      rw [List.cons_append, promptCount_cons hhead, withoutPrompts_cons hhead, hcount, hwithout]
      exact ⟨rfl, rfl⟩

/-- What is written when a prompt stands before each of some texts and behind them. -/
def prompted (texts : List String) : String :=
  String.join (texts.map fun x => "$ " ++ x) ++ "$ "

theorem prompted_nil : (prompted []).toList = ['$', ' '] := by simp [prompted]

theorem prompted_cons (x : String) (xs : List String) :
    (prompted (x :: xs)).toList = '$' :: ' ' :: (x.toList ++ (prompted xs).toList) := by
  simp [prompted]

theorem head?_prompted (texts : List String) : (prompted texts).toList.head? ≠ some ' ' := by
  cases texts with
  | nil => simp [prompted_nil]
  | cons x xs => simp [prompted_cons]

/-- Prompts are found again around texts without spaces. -/
theorem prompts_of_prompted {texts : List String} (h : ∀ x ∈ texts, ' ' ∉ x.toList) :
    promptCount (prompted texts).toList = texts.length + 1 ∧
      withoutPrompts (prompted texts).toList = (String.join texts).toList := by
  induction texts with
  | nil =>
      rw [prompted_nil]
      exact ⟨rfl, rfl⟩
  | cons x xs ih =>
      obtain ⟨hcount, hwithout⟩ := ih fun y hy => h y (List.mem_cons_of_mem _ hy)
      obtain ⟨hcount', hwithout'⟩ :=
        append_of_space_not_mem (h x List.mem_cons_self) (head?_prompted xs)
      rw [prompted_cons, promptCount_prompt, hcount', hcount, withoutPrompts, hwithout', hwithout,
        String.join_cons, String.toList_append, List.length_cons]
      exact ⟨rfl, rfl⟩

/-! ## Two terminals -/

theorem run_prompted {arguments : List String} {env : Environment}
    (hprompt : Request.ofArguments arguments = .prompt)
    (hterm : env.term.toLower ∈ plainTerminals) :
    run arguments env = { stdout := prompted ((validLines env.stdin).map dumpOfLine) } := by
  have hdollar : promptFor env.term = "$ " := if_pos hterm
  rw [run_of_prompt hprompt, dumpLinesOf, hdollar, join_converse, prompted, List.map_map]
  rfl

theorem space_not_mem_dumpOfLine (line : List UInt8) : ' ' ∉ (dumpOfLine line).toList := by
  rw [dumpOfLine]
  cases decode? line with
  | none => simp
  | some s => exact space_not_mem_dump s

/-- A terminal on which prompts are written gets the output of one without them, and a prompt before
each line and at the end, which stand apart from all that is printed for tokens. -/
theorem prompts_stand_apart {arguments : List String} {plain silent : Environment}
    (hprompt : Request.ofArguments arguments = .prompt)
    (hplain : plain.term.toLower ∈ plainTerminals)
    (hsilent : silent.term.toLower ∉ plainTerminals)
    (hstdin : plain.stdin = silent.stdin) :
    let P := run arguments plain
    let Q := run arguments silent
    (∀ s, ∀ t ∈ tokens s, ' ' ∉ t.display.toList) ∧
      withoutPrompts P.stdout.toList = Q.stdout.toList ∧
      (promptCount P.stdout.toList = (validLines plain.stdin).length + 1 ∧
        Q.lines.count endLine = (validLines plain.stdin).length) ∧
      P.code = Q.code ∧ P.stderr = Q.stderr := by
  intro P Q
  have hP : P = { stdout := prompted ((validLines plain.stdin).map dumpOfLine) } :=
    run_prompted hprompt hplain
  have hQ : Q = { stdout := String.join ((validLines plain.stdin).map dumpOfLine) } := by
    rw [hstdin]
    exact run_prompt hprompt hsilent
  have hspace : ∀ x ∈ (validLines plain.stdin).map dumpOfLine, ' ' ∉ x.toList := by
    intro x hx
    obtain ⟨line, -, rfl⟩ := List.mem_map.mp hx
    exact space_not_mem_dumpOfLine line
  obtain ⟨hcount, hwithout⟩ := prompts_of_prompted hspace
  refine ⟨fun s t ht => space_not_mem_display_of_mem_tokens ht, ?_, ⟨?_, ?_⟩, ?_, ?_⟩
  · rw [hP, hQ]
    exact hwithout
  · rw [hP, ← List.length_map dumpOfLine]
    exact hcount
  · rw [hstdin]
    exact count_endLine_lines hprompt hsilent
  · rw [hP, hQ]
  · rw [hP, hQ]

/-- The bytes of `$ $` and a line feed, of `$ "` and a line feed, and of a line that is no text. -/
def dollarInput : List UInt8 := [0x24, 0x20, 0x24, 0x0a, 0x24, 0x20, 0x22, 0x0a, 0xff, 0x24, 0x20]

theorem prompts_stand_apart_dollars :
    let plain : Environment := { stdin := dollarInput, term := "Emacs" }
    let silent : Environment := { stdin := dollarInput }
    Request.ofArguments ["--"] = .prompt ∧ plain.term.toLower ∈ plainTerminals ∧
      silent.term.toLower ∉ plainTerminals ∧ (validLines dollarInput).length = 2 ∧
      withoutPrompts (run ["--"] plain).stdout.toList = (run ["--"] silent).stdout.toList ∧
      promptCount (run ["--"] plain).stdout.toList = 3 := by
  intro plain silent
  have hprompt : Request.ofArguments ["--"] = .prompt := by decide +kernel
  have hplain : plain.term.toLower ∈ plainTerminals := by decide +kernel
  have hsilent : silent.term.toLower ∉ plainTerminals := by decide +kernel
  have hlines : (validLines dollarInput).length = 2 := by decide +kernel
  obtain ⟨-, hwithout, ⟨hcount, -⟩, -⟩ := prompts_stand_apart hprompt hplain hsilent rfl
  refine ⟨hprompt, hplain, hsilent, hlines, hwithout, ?_⟩
  rw [hcount]
  exact congrArg (· + 1) hlines

end TokenStream.Command
