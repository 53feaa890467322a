import TokenStream.Lexer.Basic

/-!
# Consuming a stream of tokens

Ways to use up the tokens that `next` gives: all of them, a number of them, or one at an index.
Each answers with a lexer that goes on where it stopped. The end token counts as an element.
-/

namespace TokenStream.Lexer

/-- Folds a function over the tokens that `next` still gives. -/
def fold {β : Type} (f : β → Token → β) (b : β) (l : Lexer) : β × Lexer :=
  match h : l.next.1 with
  | none => (b, l.next.2)
  | some t =>
    have := pending_next_lt h
    l.next.2.fold f (f b t)
termination_by l.pending

def collect (l : Lexer) : List Token × Lexer :=
  let r := l.fold Array.push #[]
  (r.1.toList, r.2)

def count (l : Lexer) : Nat × Lexer := l.fold (fun n _ => n + 1) 0

def last? (l : Lexer) : Option Token × Lexer := l.fold (fun _ t => some t) none

/-- At most `n` of the tokens that `next` still gives. -/
def take (n : Nat) (l : Lexer) : List Token × Lexer :=
  match n with
  | 0 => ([], l)
  | n + 1 =>
    match l.next with
    | (none, l') => ([], l')
    | (some t, l') =>
      let r := l'.take n
      (t :: r.1, r.2)

/-- The token after `n` others, if `next` still gives that many. -/
def nth? (n : Nat) (l : Lexer) : Option Token × Lexer :=
  match n with
  | 0 => l.next
  | n + 1 =>
    match l.next with
    | (none, l') => (none, l')
    | (some _, l') => l'.nth? n

end TokenStream.Lexer
