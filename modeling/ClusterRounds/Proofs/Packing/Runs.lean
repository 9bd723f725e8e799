/-
  ClusterRounds.Proofs.Packing.Runs

  Runs that are shortened and written out again. A run of up to three equal octets stays as it is,
  and a longer one becomes four octets and a count; the next run starts with another octet or
  behind a count, so the reader always knows how many equal octets it has seen.
-/

import ClusterRounds.Packing.Bzip
import ClusterRounds.Proofs.Packing.Reading

namespace ClusterRounds.Packing.Bzip

/-! ## The length of a run -/

theorem runLength_le (c : UInt8) : ∀ (most : Nat) (cs : List UInt8), runLength c most cs ≤ most
  | 0, _ => Nat.zero_le _
  | most + 1, [] => Nat.zero_le _
  | most + 1, d :: rest => by
    rw [runLength]
    split
    · exact Nat.succ_le_succ (runLength_le c most rest)
    · exact Nat.zero_le _

/-- The run itself stands in front. -/
theorem eq_replicate_append (c : UInt8) : ∀ (most : Nat) (cs : List UInt8),
    cs = List.replicate (runLength c most cs) c ++ cs.drop (runLength c most cs)
  | 0, cs => by simp [runLength]
  | most + 1, [] => by simp [runLength]
  | most + 1, d :: rest => by
    rw [runLength]
    by_cases hd : d = c
    · rw [if_pos hd, hd, List.replicate_succ, List.cons_append, List.drop_succ_cons]
      exact congrArg (c :: ·) (eq_replicate_append c most rest)
    · rw [if_neg hd]
      rfl

/-- A run that is not cut off ends where another octet comes. -/
theorem head?_drop_runLength (c : UInt8) : ∀ (most : Nat) (cs : List UInt8),
    runLength c most cs < most → (cs.drop (runLength c most cs)).head? ≠ some c
  | most + 1, [], _ => nofun
  | most + 1, d :: rest, h => by
    rw [runLength] at h ⊢
    by_cases hd : d = c
    · rw [if_pos hd] at h ⊢
      rw [List.drop_succ_cons]
      exact head?_drop_runLength c most rest (Nat.lt_of_succ_lt_succ h)
    · rw [if_neg hd]
      exact fun heq => hd (Option.some.inj heq)

/-! ## Writing runs out -/

theorem fold_push (c : UInt8) (out : ByteArray) : ∀ n : Nat,
    n.fold (fun _ _ (out : ByteArray) => out.push c) out
      = (List.replicate n c).foldl ByteArray.push out
  | 0 => rfl
  | n + 1 => by
    rw [Nat.fold_succ, fold_push c out n, List.replicate_succ', List.foldl_append]
    rfl

/-- Equal octets are counted while there are less than four. -/
theorem longRuns_replicate (c : UInt8) (rest : List UInt8) : ∀ (more run : Nat) (out : ByteArray),
    0 < run → run + more ≤ 4 → longRuns (List.replicate more c ++ rest) c run out
      = longRuns rest c (run + more) ((List.replicate more c).foldl ByteArray.push out)
  | 0, run, out, _, _ => rfl
  | more + 1, run, out, hrun, hmost => by
    have hfour : run ≠ 4 := by omega
    have hsame : (run ≠ 0 && c = c : Bool) = true := by simp; omega
    rw [List.replicate_succ, List.cons_append, longRuns, if_neg hfour, if_pos hsame,
      longRuns_replicate c rest more (run + 1) (out.push c) (Nat.succ_pos _) (by omega),
      List.foldl_cons, Nat.add_assoc, Nat.add_comm 1]

/-- A run starts with an octet that does not go on with the last run. -/
theorem longRuns_run {c last : UInt8} {run : Nat} (hrun : run < 4) (hnew : run = 0 ∨ c ≠ last)
    (rest : List UInt8) {more : Nat} (hmore : more < 4) (out : ByteArray) :
    longRuns (List.replicate (more + 1) c ++ rest) last run out
      = longRuns rest c (more + 1) ((List.replicate (more + 1) c).foldl ByteArray.push out) := by
  have hstart : (run ≠ 0 && c = last : Bool) = false := by
    rcases hnew with rfl | hne <;> simp [*]
  rw [List.replicate_succ, List.cons_append, longRuns, if_neg (Nat.ne_of_lt hrun), hstart,
    if_neg Bool.false_ne_true, longRuns_replicate c rest more 1 _ Nat.one_pos (by omega),
    List.foldl_cons, Nat.add_comm 1]

/-- Runs that have been shortened are written out again. -/
theorem longRuns_shortRuns : ∀ (fuel : Nat) {cs : List UInt8} {last : UInt8} {run : Nat}
    (out : ByteArray), cs.length ≤ fuel → run < 4 → (run = 0 ∨ cs.head? ≠ some last) →
    longRuns (shortRuns fuel cs) last run out = cs.foldl ByteArray.push out := by
  -- on the fuel, for what is left behind the first run
  intro fuel
  induction fuel with
  | zero =>
    intro cs last run out hfuel _ _
    obtain rfl := List.length_eq_zero_iff.1 (Nat.le_zero.1 hfuel)
    rfl
  | succ fuel ih =>
    intro cs last run out hfuel hrun hnew
    cases cs with
    | nil =>
      rw [shortRuns]
      · rfl
      · exact nofun
    | cons c rest =>
      have hnew : run = 0 ∨ c ≠ last := hnew.imp_right fun hne heq => hne (congrArg some heq)
      have hrest := eq_replicate_append c 254 rest
      have hmost := runLength_le c 254 rest
      have hend := head?_drop_runLength c 254 rest
      rw [shortRuns]
      generalize runLength c 254 rest = more at *
      generalize hothers : rest.drop more = others at *
      have hothersLength : others.length ≤ fuel := by
        rw [← hothers, List.length_drop]
        rw [List.length_cons] at hfuel
        omega
      have hall : (c :: rest).foldl ByteArray.push out
          = others.foldl ByteArray.push ((List.replicate (more + 1) c).foldl ByteArray.push out) := by
        rw [hrest, ← List.foldl_append, List.replicate_succ, List.cons_append]
      rw [hall]
      split
      case isTrue hshort =>
        rw [longRuns_run hrun hnew _ (by omega)]
        exact ih _ hothersLength (by omega) (.inr (hend (by omega)))
      case isFalse hlong =>
        -- four octets are followed by a count, and behind it a new run may start with any octet
        have hcount : (UInt8.ofNat (more - 3)).toNat = more - 3 := by
          rw [UInt8.toNat_ofNat']
          omega
        have hsum : more + 1 = 4 + (more - 3) := by omega
        rw [longRuns_run hrun hnew _ (by decide : 3 < 4), longRuns, if_pos rfl, hcount, fold_push,
          ← List.foldl_append, List.replicate_append_replicate, ← hsum]
        exact ih _ hothersLength (by decide) (.inl rfl)

/-! ## How long shortened runs are -/

/-- A run has at least one octet, and its count makes one more. -/
theorem length_shortRuns : ∀ (fuel : Nat) (cs : List UInt8),
    (shortRuns fuel cs).length ≤ 2 * cs.length
  | 0, _ => by simp [shortRuns]
  | fuel + 1, [] => by simp [shortRuns]
  | fuel + 1, c :: rest => by
    have hothers := length_shortRuns fuel (rest.drop (runLength c 254 rest))
    have hrest := congrArg List.length (eq_replicate_append c 254 rest)
    rw [shortRuns]
    split <;>
    · simp only [List.length_append, List.length_replicate, List.length_cons] at hrest ⊢
      omega

theorem shortRuns_ne_nil (fuel : Nat) (c : UInt8) (rest : List UInt8) :
    shortRuns (fuel + 1) (c :: rest) ≠ [] := by
  rw [shortRuns]
  split <;> simp

end ClusterRounds.Packing.Bzip
