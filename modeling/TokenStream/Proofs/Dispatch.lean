import TokenStream.Command.Run
import TokenStream.Proofs.Options

/-!
# What the arguments ask for

Arguments in front of the first `--` are operands or options, those behind it are operands. With no
option and one operand a file is dumped, with no argument at all the lines of standard input are.
Otherwise one argument settles what is done, the first option or the second operand, whichever comes
first, and nothing else has a say: neither what stands behind it, nor files, nor standard input, nor
the terminal.
-/

namespace TokenStream.Command

/-! ## Arguments and the parts they have -/

/-- The arguments in front of the first `--`. -/
def front (arguments : List String) : List String := arguments.takeWhile (· != "--")

/-- The arguments behind the first `--`. -/
def back (arguments : List String) : List String := (arguments.dropWhile (· != "--")).tail

/-- No argument in front of the first `--` is an option. -/
def Plain (arguments : List String) : Prop := ∀ a ∈ front arguments, IsOperand a

/-- All arguments but the first `--`. -/
def texts (arguments : List String) : List String := front arguments ++ back arguments

inductive Argument where
  | option (text : String)
  | operand (text : String)
deriving DecidableEq, Repr

namespace Argument

def text : Argument → String
  | option a => a
  | operand a => a

def isOption : Argument → Bool
  | option _ => true
  | operand _ => false

/-- An argument in front of the first `--`. -/
def ofText (a : String) : Argument := if IsOperand a then operand a else option a

@[simp] theorem text_operand (a : String) : (operand a).text = a := rfl

@[simp] theorem text_ofText (a : String) : (ofText a).text = a := by
  rw [ofText]
  split <;> rfl

theorem ofText_eq_operand {a b : String} (h : ofText a = operand b) : IsOperand a := by
  rw [ofText] at h
  split at h
  · assumption
  · cases h

end Argument

/-- All arguments but the first `--`, each with the part that it has. -/
def parts (arguments : List String) : List Argument :=
  (front arguments).map .ofText ++ (back arguments).map .operand

theorem parts_separator (rest : List String) : parts ("--" :: rest) = rest.map .operand := by
  simp [parts, front, back]

theorem parts_cons {a : String} (h : a ≠ "--") (rest : List String) :
    parts (a :: rest) = .ofText a :: parts rest := by
  simp [parts, front, back, h]

/-- Further arguments come behind those that are there. -/
theorem exists_parts_append (arguments more : List String) :
    ∃ xs, parts (arguments ++ more) = parts arguments ++ xs := by
  induction arguments with
  | nil => exact ⟨parts more, rfl⟩
  | cons a rest ih =>
      by_cases ha : a = "--"
      · subst ha
        refine ⟨more.map .operand, ?_⟩
        rw [List.cons_append, parts_separator, parts_separator, List.map_append]
      · obtain ⟨xs, hxs⟩ := ih
        refine ⟨xs, ?_⟩
        rw [List.cons_append, parts_cons ha, parts_cons ha, hxs, List.cons_append]

theorem parts_eq_operands_iff {arguments : List String} (as : List String) :
    parts arguments = as.map .operand ↔ Plain arguments ∧ texts arguments = as := by
  constructor
  · intro h
    constructor
    · intro a ha
      have hmem : Argument.ofText a ∈ as.map .operand := by
        rw [← h]
        exact List.mem_append_left _ (List.mem_map_of_mem ha)
      obtain ⟨b, -, hb⟩ := List.mem_map.mp hmem
      exact Argument.ofText_eq_operand hb.symm
    · have htexts := congrArg (List.map Argument.text) h
      simpa [parts, texts, Function.comp_def] using htexts
  · rintro ⟨hplain, rfl⟩
    have hfront : (front arguments).map Argument.ofText = (front arguments).map .operand :=
      List.map_congr_left fun a ha => if_pos (hplain a ha)
    rw [parts, texts, hfront, List.map_append]

/-! ## The argument that settles -/

def firstOption? (xs : List Argument) : Option Nat := xs.findIdx? Argument.isOption

def secondOperand? (xs : List Argument) : Option Nat := do
  let i ← xs.findIdx? fun x => !x.isOption
  let k ← (xs.drop (i + 1)).findIdx? fun x => !x.isOption
  some (i + 1 + k)

/-- Where the first option or the second operand stands, whichever comes first. -/
def settling? (xs : List Argument) : Option Nat := (firstOption? xs).merge min (secondOperand? xs)

theorem pos_of_secondOperand? {xs : List Argument} {k : Nat} (h : secondOperand? xs = some k) :
    0 < k := by
  simp only [secondOperand?, Option.bind_eq_bind, Option.bind_eq_some_iff, Option.some.injEq] at h
  obtain ⟨i, -, j, -, rfl⟩ := h
  omega

theorem settling?_option (a : String) (xs : List Argument) :
    settling? (.option a :: xs) = some 0 := by
  have hfirst : firstOption? (.option a :: xs) = some 0 := by
    simp [firstOption?, List.findIdx?_cons, Argument.isOption]
  rw [settling?, hfirst]
  cases secondOperand? (.option a :: xs) <;> simp

theorem settling?_operand_option (f a : String) (xs : List Argument) :
    settling? (.operand f :: .option a :: xs) = some 1 := by
  have hfirst : firstOption? (.operand f :: .option a :: xs) = some 1 := by
    simp [firstOption?, List.findIdx?_cons, Argument.isOption]
  rw [settling?, hfirst]
  cases hsecond : secondOperand? (.operand f :: .option a :: xs) with
  | none => rfl
  | some k => exact congrArg some (Nat.min_eq_left (pos_of_secondOperand? hsecond))

theorem settling?_operand_operand (f a : String) (xs : List Argument) :
    settling? (.operand f :: .operand a :: xs) = some 1 := by
  have hsecond : secondOperand? (.operand f :: .operand a :: xs) = some 1 := by
    simp [secondOperand?, List.findIdx?_cons, Argument.isOption]
  rw [settling?, hsecond]
  cases hfirst : firstOption? (.operand f :: .operand a :: xs) with
  | none => rfl
  | some k =>
      have hk : 0 < k := by
        simp only [firstOption?, List.findIdx?_cons, Argument.isOption, Bool.false_eq_true,
          if_false, Option.map_map, Option.map_eq_some_iff] at hfirst
        obtain ⟨i, -, rfl⟩ := hfirst
        exact Nat.succ_pos _
      exact congrArg some (Nat.min_eq_right hk)

-- behind the separator `-h` is an operand, here the second one
example : settling? (parts ["x", "--", "-h", "y"]) = some 1 := by decide +kernel

/-! ## What settles a request -/

/-- The requests that are answered without any input, and their answers. -/
inductive Replies : Request → Output → Prop
  | help : Replies .help { stdout := helpText }
  | version : Replies .version { stdout := versionText }
  | reject (shown : String) : Replies (.reject shown) (.ofFailure (.unexpected shown))

theorem Replies.ne_prompt {r : Request} {out : Output} (h : Replies r out) : r ≠ .prompt := by
  rintro rfl
  cases h

theorem Replies.ne_file {r : Request} {out : Output} (h : Replies r out) (f : String) :
    r ≠ .file f := by
  rintro rfl
  cases h

theorem exists_replies_named (help version shown name : String) :
    ∃ out, Replies (named help version shown name) out := by
  simp only [named]
  split
  · exact ⟨_, .help⟩
  · split
    · exact ⟨_, .version⟩
    · exact ⟨_, .reject shown⟩

theorem OptionAsks.exists_replies {a : String} {r : Request} (h : OptionAsks a r) :
    ∃ out, Replies r out := by
  cases h with
  | long _ _ _ _ _ _ _ _ => exact exists_replies_named _ _ _ _
  | short _ _ => exact exists_replies_named _ _ _ _

theorem exists_replies_of_ofOption? {a : String} {r : Request}
    (h : Request.ofOption? a = some r) : ∃ out, Replies r out :=
  (optionAsks_iff.mpr h).exists_replies

/-- What is asked for where `x` settles it. -/
def Argument.AsksFor : Argument → Request → Prop
  | option a, r => OptionAsks a r
  | operand a, r => r = .reject a

theorem asksFor_option_iff {a : String} {r r' : Request} (ha : Request.ofOption? a = some r) :
    (Argument.option a).AsksFor r' ↔ r' = r := by
  rw [Argument.AsksFor, optionAsks_iff, ha, Option.some.injEq, eq_comm]

/-! ## The request that arguments make -/

/-- What is asked for by arguments with their parts, told from how they begin. -/
inductive Asks : List Argument → Request → Prop
  | nothing : Asks [] .prompt
  | operand (f : String) : Asks [.operand f] (.file f)
  | option {a : String} {r : Request} (xs : List Argument) :
      Request.ofOption? a = some r → Asks (.option a :: xs) r
  | operandOption (f : String) {a : String} {r : Request} (xs : List Argument) :
      Request.ofOption? a = some r → Asks (.operand f :: .option a :: xs) r
  | operandOperand (f a : String) (xs : List Argument) :
      Asks (.operand f :: .operand a :: xs) (.reject a)

theorem asks_ofOperands (operand : Option String) (rest : List String) :
    Asks (operand.toList.map .operand ++ rest.map .operand) (Request.ofOperands operand rest) := by
  cases operand with
  | none =>
      cases rest with
      | nil => exact .nothing
      | cons a rest =>
          cases rest with
          | nil => exact .operand a
          | cons b rest => exact .operandOperand a b _
  | some f =>
      cases rest with
      | nil => exact .operand f
      | cons a rest => exact .operandOperand f a _

section

variable {a : String} (rest : List String)

theorem ofRest_separator (operand : Option String) :
    Request.ofRest operand ("--" :: rest) = Request.ofOperands operand rest := by
  unfold Request.ofRest
  exact if_pos rfl

theorem ofRest_option {r : Request} (ha : a ≠ "--") (hopt : Request.ofOption? a = some r)
    (operand : Option String) : Request.ofRest operand (a :: rest) = r := by
  unfold Request.ofRest
  rw [if_neg ha, hopt]

theorem ofRest_operand (ha : a ≠ "--") (hopt : Request.ofOption? a = none) :
    Request.ofRest none (a :: rest) = Request.ofRest (some a) rest := by
  conv => lhs; unfold Request.ofRest
  rw [if_neg ha, hopt]

theorem ofRest_second_operand (ha : a ≠ "--") (hopt : Request.ofOption? a = none) (f : String) :
    Request.ofRest (some f) (a :: rest) = .reject a := by
  unfold Request.ofRest
  rw [if_neg ha, hopt]

end

/-- The loop has read one operand at most, which stands in front of the rest. -/
theorem asks_ofRest (operand : Option String) (arguments : List String) :
    Asks (operand.toList.map .operand ++ parts arguments)
      (Request.ofRest operand arguments) := by
  -- only an operand can be in front of the rest, as an option ends the loop
  induction arguments generalizing operand with
  | nil => exact asks_ofOperands operand []
  | cons a rest ih =>
      by_cases ha : a = "--"
      · subst ha
        rw [parts_separator, ofRest_separator]
        exact asks_ofOperands operand rest
      rw [parts_cons ha, Argument.ofText]
      cases hopt : Request.ofOption? a with
      | some r =>
          have hop : ¬IsOperand a := by
            rw [← ofOption?_eq_none_iff, hopt]
            simp
          rw [if_neg hop, ofRest_option rest ha hopt]
          cases operand with
          | none => exact .option _ hopt
          | some f => exact .operandOption f _ hopt
      | none =>
          rw [if_pos (ofOption?_eq_none_iff.mp hopt)]
          cases operand with
          | none =>
              rw [ofRest_operand rest ha hopt]
              exact ih (some a)
          | some f =>
              rw [ofRest_second_operand rest ha hopt]
              exact .operandOperand f a _

theorem asks_ofArguments (arguments : List String) :
    Asks (parts arguments) (Request.ofArguments arguments) :=
  asks_ofRest none arguments

namespace Asks

variable {xs : List Argument} {r r' : Request}

theorem unique (h : Asks xs r) (h' : Asks xs r') : r = r' := by
  cases h with
  | nothing => cases h' with | nothing => rfl
  | operand f => cases h' with | operand => rfl
  | option ys ha =>
      cases h' with
      | option _ ha' => exact Option.some.inj (ha.symm.trans ha')
  | operandOption f ys ha =>
      cases h' with
      | operandOption _ _ ha' => exact Option.some.inj (ha.symm.trans ha')
  | operandOperand f a ys => cases h' with | operandOperand => rfl

theorem eq_prompt_iff (h : Asks xs r) : r = .prompt ↔ xs = [] := by
  have of_option {a : String} (ha : Request.ofOption? a = some r) : r ≠ .prompt := by
    obtain ⟨out, hout⟩ := exists_replies_of_ofOption? ha
    exact hout.ne_prompt
  cases h with
  | nothing => simp
  | operand g => simp
  | option ys ha => exact iff_of_false (of_option ha) (by simp)
  | operandOption g ys ha => exact iff_of_false (of_option ha) (by simp)
  | operandOperand g a ys => simp

theorem eq_file_iff (h : Asks xs r) (f : String) : r = .file f ↔ xs = [.operand f] := by
  have of_option {a : String} (ha : Request.ofOption? a = some r) : r ≠ .file f := by
    obtain ⟨out, hout⟩ := exists_replies_of_ofOption? ha
    exact hout.ne_file f
  cases h with
  | nothing => simp
  | operand g => simp
  | option ys ha => exact iff_of_false (of_option ha) (by simp)
  | operandOption g ys ha => exact iff_of_false (of_option ha) (by simp)
  | operandOperand g a ys => simp

/-- Unless nothing or one operand is there, one argument settles the request, whatever comes behind
the arguments. -/
theorem settling (h : Asks xs r) (hprompt : r ≠ .prompt) (hfile : ∀ f, r ≠ .file f) :
    (∃ i x, settling? xs = some i ∧ xs[i]? = some x ∧ ∀ r', x.AsksFor r' ↔ r' = r) ∧
      (∃ out, Replies r out) ∧ ∀ ys, Asks (xs ++ ys) r := by
  cases h with
  | nothing => exact absurd rfl hprompt
  | operand f => exact absurd rfl (hfile f)
  | @option a _ xs ha =>
      exact ⟨⟨0, .option a, settling?_option a xs, rfl, fun _ => asksFor_option_iff ha⟩,
        exists_replies_of_ofOption? ha, fun ys => .option (xs ++ ys) ha⟩
  | @operandOption f a _ xs ha =>
      exact ⟨⟨1, .option a, settling?_operand_option f a xs, rfl, fun _ => asksFor_option_iff ha⟩,
        exists_replies_of_ofOption? ha, fun ys => .operandOption f (xs ++ ys) ha⟩
  | operandOperand f a xs =>
      exact ⟨⟨1, .operand a, settling?_operand_operand f a xs, rfl, fun _ => Iff.rfl⟩,
        ⟨_, .reject a⟩, fun ys => .operandOperand f a (xs ++ ys)⟩

end Asks

/-! ## What has a say in a run -/

theorem run_of_replies {arguments : List String} {out : Output}
    (h : Replies (Request.ofArguments arguments) out) (env : Environment) :
    run arguments env = out := by
  rw [run]
  generalize Request.ofArguments arguments = r at h
  cases h <;> rfl

/-- One argument settles the request `r`, and nothing else has a say in what is done: no argument
behind those that are there, and nothing of what is around. -/
structure Settled (arguments : List String) (r : Request) : Prop where
  settling : ∃ i x, settling? (parts arguments) = some i ∧ (parts arguments)[i]? = some x ∧
    ∀ r', x.AsksFor r' ↔ r' = r
  append : ∀ more, Request.ofArguments (arguments ++ more) = r
  output : ∃ out, Replies r out ∧ ∀ more env, run (arguments ++ more) env = out

/-- What asks neither for a file nor for lines is settled by one argument. -/
theorem settled_of_ne {arguments : List String}
    (hprompt : Request.ofArguments arguments ≠ .prompt)
    (hfile : ∀ f, Request.ofArguments arguments ≠ .file f) :
    Settled arguments (Request.ofArguments arguments) := by
  obtain ⟨hsettling, ⟨out, hout⟩, happend⟩ :=
    (asks_ofArguments arguments).settling hprompt hfile
  have hmore (more : List String) :
      Request.ofArguments (arguments ++ more) = Request.ofArguments arguments := by
    obtain ⟨xs, hxs⟩ := exists_parts_append arguments more
    have hasks := asks_ofArguments (arguments ++ more)
    rw [hxs] at hasks
    exact hasks.unique (happend xs)
  refine ⟨hsettling, hmore, out, hout, ?_⟩
  intro more env
  apply run_of_replies
  rwa [hmore more]

/-- The arguments alone decide what a run does. It dumps a file when there is no option and one
operand, the lines of standard input when there is no argument but the separator, and in all other
cases gives the answer that one argument settles. -/
theorem arguments_decide_run (arguments : List String) :
    (∀ f, Request.ofArguments arguments = .file f ↔ Plain arguments ∧ texts arguments = [f]) ∧
      (Request.ofArguments arguments = .prompt ↔ Plain arguments ∧ texts arguments = []) ∧
      (¬Plain arguments ∨ 1 < (texts arguments).length →
        Settled arguments (Request.ofArguments arguments)) ∧
      (∀ f, Request.ofArguments arguments = .file f → ∀ env,
        run arguments env = dumpFile f (env.files.read f) ∧
        ∀ env', env.files = env'.files → run arguments env = run arguments env') ∧
      (Request.ofArguments arguments = .prompt → ∀ env,
        run arguments env = dumpLinesOf env.term env.stdin ∧
        ∀ env', env.term = env'.term → env.stdin = env'.stdin →
          run arguments env = run arguments env') := by
  have hasks := asks_ofArguments arguments
  have hfile (f : String) := (hasks.eq_file_iff f).trans (parts_eq_operands_iff [f])
  have hprompt := hasks.eq_prompt_iff.trans (parts_eq_operands_iff [])
  refine ⟨hfile, hprompt, ?_, ?_, ?_⟩
  · intro hother
    refine settled_of_ne ?_ ?_
    · intro hr
      obtain ⟨hplain, htexts⟩ := hprompt.mp hr
      rw [htexts] at hother
      rcases hother with hother | hother
      · exact hother hplain
      · cases hother
    · intro f hr
      obtain ⟨hplain, htexts⟩ := (hfile f).mp hr
      rw [htexts] at hother
      rcases hother with hother | hother
      · exact hother hplain
      · exact absurd hother (Nat.lt_irrefl 1)
  · intro f hr env
    refine ⟨run_of_file hr env, ?_⟩
    intro env' hfiles
    rw [run_of_file hr, run_of_file hr, hfiles]
  · intro hr env
    refine ⟨run_of_prompt hr env, ?_⟩
    intro env' hterm hstdin
    rw [run_of_prompt hr, run_of_prompt hr, hterm, hstdin]

end TokenStream.Command
