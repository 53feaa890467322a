import TokenStream.Lexer.Iteration

/-!
# Sessions

A session runs steps on one lexer, in order. Each step yields an answer, the position after it, and
the records that it wrote.
-/

namespace TokenStream

inductive Step where
  | scan
  | next
  | scanAll
  | collect
  | take (n : Nat)
  | nth (n : Nat)
  | count
  | last
  | source
deriving DecidableEq, Repr

inductive Answer where
  | token (t : Token)
  | token? (t : Option Token)
  | tokens (ts : List Token)
  | number (n : Nat)
  | text (s : String)
deriving DecidableEq, Repr

structure Outcome where
  answer : Answer
  position : Nat
  records : List Record
deriving DecidableEq, Repr

def Step.run (l : Lexer) : Step → Answer × Lexer
  | scan => l.scan.map .token id
  | next => l.next.map .token? id
  | scanAll => l.scanAll.map .tokens id
  | collect => l.collect.map .tokens id
  | take n => (l.take n).map .tokens id
  | nth n => (l.nth? n).map .token? id
  | count => l.count.map .number id
  | last => l.last?.map .token? id
  | source => (.text l.source, l)

/-- Runs steps one after another, each with the log emptied first. -/
def Lexer.session (l : Lexer) : List Step → List Outcome
  | [] => []
  | step :: steps =>
    let r := step.run { l with log := l.log.flush }
    ⟨r.1, r.2.pos, r.2.log.records.toList⟩ :: r.2.session steps

end TokenStream
