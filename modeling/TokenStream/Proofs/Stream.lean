import TokenStream.Dump
import TokenStream.Proofs.Tape

/-!
# Streams of tokens

The tokens that `next` still gives are a list, and each way to use them up answers with a part of
it. A lexer keeps to a head while that is done, and its log grows by the tokens that the head
passes: by each of them once, and by no others.
-/

namespace TokenStream.Tape

variable {T : Tape} {i n : Nat}

/-! ## The tokens ahead -/

/-- The tokens that `next` still gives, the end token included. -/
def ahead (T : Tape) (h : Head) : List Token :=
  if h.done then [] else T.tokens.drop h.index ++ [T.eof]

/-- Where `n` calls of `next` leave a head. -/
def skip (T : Tape) (h : Head) (n : Nat) : Head :=
  if h.done then h
  else if n < (T.ahead h).length then { h with index := h.index + n }
  else ⟨T.last, true⟩

@[simp] theorem skip_closed : T.skip ⟨i, true⟩ n = ⟨i, true⟩ := rfl

theorem ahead_of_some {t : Token} (ht : T.tokens[i]? = some t) :
    T.ahead ⟨i, false⟩ = t :: T.ahead ⟨i + 1, false⟩ := by
  obtain ⟨hlt, rfl⟩ := List.getElem?_eq_some_iff.mp ht
  simp only [ahead, Bool.false_eq_true, if_false]
  rw [List.drop_eq_getElem_cons hlt, List.cons_append]

theorem ahead_of_none (ht : T.tokens[i]? = none) : T.ahead ⟨i, false⟩ = [T.eof] := by
  simp [ahead, List.drop_eq_nil_of_le (List.getElem?_eq_none_iff.mp ht)]

theorem next_of_some {t : Token} (ht : T.tokens[i]? = some t) :
    T.next ⟨i, false⟩ = (some t, ⟨i + 1, false⟩) := by
  have hscan : T.scan ⟨i, false⟩ = (t, ⟨i + 1, false⟩) := scan_of_some ht
  simp [next, hscan, isEof_eq_false (List.mem_of_getElem? ht)]

theorem next_of_none (ht : T.tokens[i]? = none) :
    T.next ⟨i, false⟩ = (some T.eof, ⟨T.last, true⟩) := by
  have hscan : T.scan ⟨i, false⟩ = (T.eof, ⟨T.last, false⟩) := scan_of_none ht
  simp [next, hscan, eof]

theorem fst_next (T : Tape) (h : Head) : (T.next h).1 = (T.ahead h).head? := by
  obtain ⟨i, _ | _⟩ := h
  · cases ht : T.tokens[i]? with
    | some t => rw [next_of_some ht, ahead_of_some ht]; rfl
    | none => rw [next_of_none ht, ahead_of_none ht]; rfl
  · rfl

theorem ahead_next (T : Tape) (h : Head) : T.ahead (T.next h).2 = (T.ahead h).tail := by
  obtain ⟨i, _ | _⟩ := h
  · cases ht : T.tokens[i]? with
    | some t => rw [next_of_some ht, ahead_of_some ht]; rfl
    | none => rw [next_of_none ht, ahead_of_none ht]; rfl
  · rfl

theorem next_of_ahead_eq_nil {h : Head} (ha : T.ahead h = []) : T.next h = (none, h) := by
  obtain ⟨i, _ | _⟩ := h
  · simp [ahead] at ha
  · rfl

theorem skip_of_ahead_eq_nil {h : Head} (ha : T.ahead h = []) : T.skip h n = h := by
  obtain ⟨i, _ | _⟩ := h
  · simp [ahead] at ha
  · rfl

theorem skip_zero (T : Tape) (h : Head) : T.skip h 0 = h := by
  obtain ⟨i, _ | _⟩ := h
  · simp [skip, ahead]
  · rfl

theorem skip_succ (T : Tape) (h : Head) (n : Nat) :
    T.skip h (n + 1) = T.skip (T.next h).2 n := by
  obtain ⟨i, _ | _⟩ := h
  · cases ht : T.tokens[i]? with
    | some t =>
        rw [next_of_some ht]
        simp [skip, ahead_of_some ht, Nat.add_assoc, Nat.add_comm 1]
    | none =>
        rw [next_of_none ht]
        simp [skip, ahead_of_none ht]
  · rfl

/-! ## Lexers that keep to a head -/

/-- A lexer keeps to a head, and since the head was at `k` the log has taken the tokens passed. -/
structure Follows (T : Tape) (k : Nat) (log : Log) (l : Lexer) (h : Head) : Prop
    extends T.Tracks l h where
  le_index : min k T.tokens.length ≤ h.index
  log_eq : l.log = (((T.tokens.take h.index).drop k).map Record.scanned).foldl Log.write log

variable {k : Nat} {log : Log} {l : Lexer} {h : Head}

theorem Tracks.follows (ht : T.Tracks l h) : T.Follows h.index l.log l h where
  toTracks := ht
  le_index := Nat.min_le_left _ _
  log_eq := by rw [List.drop_eq_nil_of_le (List.length_take_le ..)]; rfl

theorem Follows.scan (hf : T.Follows k log l h) :
    l.scan.1 = (T.scan h).1 ∧ T.Follows k log l.scan.2 (T.scan h).2 := by
  obtain ⟨hfst, hsnd⟩ := hf.toTracks.scan
  have hlog : l.scan.2.log =
      if (T.scan h).1.isEof then l.log else l.log.write (.scanned (T.scan h).1) := by
    rw [← hfst]
    rfl
  rw [hf.log_eq] at hlog
  have hle := hf.le_index
  cases ht : T.tokens[h.index]? with
  | none =>
      have hlen := List.getElem?_eq_none_iff.mp ht
      rw [scan_of_none ht] at hfst hsnd hlog ⊢
      refine ⟨hfst, hsnd, Nat.le_succ_of_le (Nat.min_le_right _ _), ?_⟩
      rw [hlog, take_last, List.take_of_length_le hlen]
      rfl
  | some t =>
      have hlt := (List.getElem?_eq_some_iff.mp ht).1
      have hk : k ≤ (T.tokens.take h.index).length := by rw [List.length_take]; omega
      rw [scan_of_some ht] at hfst hsnd hlog ⊢
      refine ⟨hfst, hsnd, Nat.le_succ_of_le hle, ?_⟩
      rw [hlog, isEof_eq_false (List.mem_of_getElem? ht), List.take_add_one, ht,
        List.drop_append_of_le_length hk]
      simp

theorem Follows.next (hf : T.Follows k log l h) :
    l.next.1 = (T.next h).1 ∧ T.Follows k log l.next.2 (T.next h).2 := by
  obtain ⟨hfst, hsnd⟩ := hf.toTracks.next
  obtain ⟨-, -, hle, hlog⟩ := hf.scan
  revert hfst hsnd
  unfold Lexer.next Tape.next
  rw [hf.done_eq]
  cases h.done with
  | true => exact fun hfst hsnd => ⟨hfst, hsnd, hf.le_index, hf.log_eq⟩
  | false => exact fun hfst hsnd => ⟨hfst, hsnd, hle, hlog⟩

theorem Follows.next_of_nil (hf : T.Follows k log l h) (ha : T.ahead h = []) :
    l.next.1 = none ∧ T.Follows k log l.next.2 h := by
  have hnext := hf.next
  rwa [next_of_ahead_eq_nil ha] at hnext

theorem Follows.next_of_cons {t : Token} {ts : List Token} (hf : T.Follows k log l h)
    (ha : T.ahead h = t :: ts) :
    l.next.1 = some t ∧ T.Follows k log l.next.2 (T.next h).2 ∧ T.ahead (T.next h).2 = ts := by
  obtain ⟨hfst, hsnd⟩ := hf.next
  rw [fst_next, ha] at hfst
  exact ⟨hfst, hsnd, by rw [ahead_next, ha, List.tail_cons]⟩

theorem Follows.drain (hf : T.Follows k log l h) (pulled : Array Token) :
    T.Follows k log (l.drain pulled).2 { h with index := T.last } :=
  drain_of_scan (fun _ _ => Follows.scan) hf pulled

end TokenStream.Tape

/-! ## Using a stream up -/

namespace TokenStream.Lexer

variable {l : Lexer} {t : Token} {n : Nat} {β : Type} {f : β → Token → β} {b : β}

theorem take_succ_of_none (h : l.next.1 = none) : l.take (n + 1) = ([], l.next.2) := by
  unfold take
  split
  · next hn => rw [hn]
  · next hn => rw [hn] at h; cases h

theorem take_succ_of_some (h : l.next.1 = some t) :
    l.take (n + 1) = (t :: (l.next.2.take n).1, (l.next.2.take n).2) := by
  rw [take]
  split
  · next hn => rw [hn] at h; cases h
  · next hn =>
      rw [hn, Option.some.injEq] at h
      rw [hn, h]

theorem nth?_succ_of_none (h : l.next.1 = none) : l.nth? (n + 1) = (none, l.next.2) := by
  unfold nth?
  split
  · next hn => rw [hn]
  · next hn => rw [hn] at h; cases h

theorem nth?_succ_of_some (h : l.next.1 = some t) : l.nth? (n + 1) = l.next.2.nth? n := by
  rw [nth?]
  split
  · next hn => rw [hn] at h; cases h
  · next hn => rw [hn]

theorem fold_of_none (h : l.next.1 = none) : l.fold f b = (b, l.next.2) := by
  rw [fold]
  split
  · rfl
  · next hn => rw [hn] at h; cases h

theorem fold_of_some (h : l.next.1 = some t) : l.fold f b = l.next.2.fold f (f b t) := by
  rw [fold]
  split
  · next hn => rw [hn] at h; cases h
  · next hn =>
      rw [hn, Option.some.injEq] at h
      subst h
      rfl

end TokenStream.Lexer

namespace TokenStream.Tape

variable {T : Tape} {k : Nat} {log : Log} {l : Lexer} {h : Head}

theorem Follows.take (hf : T.Follows k log l h) (n : Nat) :
    (l.take n).1 = (T.ahead h).take n ∧ T.Follows k log (l.take n).2 (T.skip h n) := by
  induction n generalizing l h with
  | zero => exact ⟨rfl, by rwa [skip_zero]⟩
  | succ n ih =>
      cases ha : T.ahead h with
      | nil =>
          obtain ⟨hnext, hf'⟩ := hf.next_of_nil ha
          rw [Lexer.take_succ_of_none hnext, skip_of_ahead_eq_nil ha]
          exact ⟨rfl, hf'⟩
      | cons t ts =>
          obtain ⟨hnext, hf', ha'⟩ := hf.next_of_cons ha
          obtain ⟨htake, hend⟩ := ih hf'
          rw [Lexer.take_succ_of_some hnext, htake, ha', skip_succ]
          exact ⟨rfl, hend⟩

theorem Follows.nth? (hf : T.Follows k log l h) (n : Nat) :
    (l.nth? n).1 = (T.ahead h)[n]? ∧ T.Follows k log (l.nth? n).2 (T.skip h (n + 1)) := by
  induction n generalizing l h with
  | zero =>
      rw [skip_succ, skip_zero, ← List.head?_eq_getElem?, ← fst_next]
      exact hf.next
  | succ n ih =>
      cases ha : T.ahead h with
      | nil =>
          obtain ⟨hnext, hf'⟩ := hf.next_of_nil ha
          rw [Lexer.nth?_succ_of_none hnext, skip_of_ahead_eq_nil ha]
          exact ⟨rfl, hf'⟩
      | cons t ts =>
          obtain ⟨hnext, hf', ha'⟩ := hf.next_of_cons ha
          obtain ⟨hnth, hend⟩ := ih hf'
          rw [Lexer.nth?_succ_of_some hnext, hnth, ha', skip_succ]
          exact ⟨rfl, hend⟩

theorem Follows.fold {β : Type} (hf : T.Follows k log l h) (f : β → Token → β) (b : β) :
    (l.fold f b).1 = (T.ahead h).foldl f b ∧
      T.Follows k log (l.fold f b).2 (T.skip h (T.ahead h).length) := by
  generalize ha : T.ahead h = ts
  induction ts generalizing l h b with
  | nil =>
      obtain ⟨hnext, hf'⟩ := hf.next_of_nil ha
      rw [Lexer.fold_of_none hnext, skip_of_ahead_eq_nil ha]
      exact ⟨rfl, hf'⟩
  | cons t ts ih =>
      obtain ⟨hnext, hf', ha'⟩ := hf.next_of_cons ha
      obtain ⟨hfold, hend⟩ := ih hf' (f b t) ha'
      rw [Lexer.fold_of_some hnext, hfold, List.length_cons, skip_succ]
      exact ⟨rfl, hend⟩

theorem Follows.collect (hf : T.Follows k log l h) :
    l.collect.1 = T.ahead h ∧ T.Follows k log l.collect.2 (T.skip h (T.ahead h).length) := by
  obtain ⟨hfst, hsnd⟩ := hf.fold Array.push #[]
  refine ⟨?_, hsnd⟩
  simp only [Lexer.collect, hfst]
  simp

theorem Follows.count (hf : T.Follows k log l h) :
    l.count.1 = (T.ahead h).length ∧
      T.Follows k log l.count.2 (T.skip h (T.ahead h).length) := by
  obtain ⟨hfst, hsnd⟩ := hf.fold (fun n _ => n + 1) 0
  refine ⟨?_, hsnd⟩
  simp only [Lexer.count, hfst]
  simp

theorem Follows.last? (hf : T.Follows k log l h) :
    l.last?.1 = (T.ahead h).getLast? ∧
      T.Follows k log l.last?.2 (T.skip h (T.ahead h).length) := by
  obtain ⟨hfst, hsnd⟩ := hf.fold (fun _ t => some t) none
  refine ⟨?_, hsnd⟩
  simp only [Lexer.last?, hfst]
  rcases List.eq_nil_or_concat (T.ahead h) with ha | ⟨ts, t, ha⟩
  · rw [ha]; rfl
  · rw [ha]; simp

end TokenStream.Tape

namespace TokenStream

/-- The stream of a new lexer is the reading of its source, and then the end token. -/
theorem tokens_eq_of_reads {s : String} {ts : List Token} (h : Reads 0 s ts) :
    tokens s = ts ++ [.eof s.utf8ByteSize] := by
  have htrack : Tape.Tracks ⟨s, ts, h⟩ (Lexer.ofString s) {} :=
    ⟨rfl, rfl, rfl, "", s, Lexer.ofString_at s .off, h⟩
  exact htrack.follows.collect.1

end TokenStream
