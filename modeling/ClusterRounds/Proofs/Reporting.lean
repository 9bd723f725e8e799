/-
  ClusterRounds.Proofs.Reporting

  How the report on a model fails. There is a rate unless the number of operations has no
  double, since the time that it is divided by is above zero; and the document is written
  unless its path is none, or the files are in the way.
-/

import ClusterRounds.Proofs.Outcome
import ClusterRounds.Report

namespace ClusterRounds

open Files Number

/-! ## Times above zero -/

theorem Number.compareMagnitude_zero {m : Nat} {e : Int} (h : compareMagnitude m e 0 = .eq) : m = 0 := by
  unfold compareMagnitude ratioOf at h
  dsimp only at h
  rw [Nat.zero_mul, Nat.compare_eq_eq] at h
  have hnum : 0 < (powerOfTwo e).1 := by
    unfold powerOfTwo
    split
    · exact Nat.two_pow_pos _
    · exact Nat.one_pos
  exact (Nat.mul_eq_zero.1 h).resolve_right (Nat.ne_of_gt hnum)

theorem Number.Parts.magnitude_of_compareInt {negative : Bool} {m : Nat} {e : Int}
    (h : (Parts.finite negative m e).compareInt 0 = some .eq) : m = 0 := by
  simp only [compareInt, Int.le_refl, if_true, Int.lt_irrefl, if_false] at h
  split at h
  · cases h
  · exact compareMagnitude_zero (Option.some.inj h)

/-- Only the two zeros are as large as zero. -/
theorem Number.Parts.bits_of_compareInt {bits : Nat} (hbits : bits < 2 ^ 64)
    (h : (Parts.ofBits .double bits).compareInt 0 = some .eq) : bits = 0 ∨ bits = 2 ^ 63 := by
  have hfractions : 2 ^ (Format.double.precision - 1) = 2 ^ 52 := rfl
  have hcodes : Format.double.exponentCodes = 2048 := rfl
  simp only [ofBits, hfractions, hcodes] at h
  split at h
  · split at h
    · simp only [compareInt, Option.some.injEq] at h
      split at h <;> cases h
    · cases h
  · have hm : bits / 2 ^ 52 % 2048 = 0 ∧ bits % 2 ^ 52 = 0 := by
      split at h
      · exact ⟨‹_›, magnitude_of_compareInt h⟩
      · have hm := magnitude_of_compareInt h
        omega
    omega

theorem Number.not_pos_of_bits {x : Float} (h : x.toBits.toNat = 0 ∨ x.toBits.toNat = 2 ^ 63) :
    ¬ 0 < x := by
  obtain ⟨⟨bits, valid⟩⟩ := x
  have hbits : bits = 0 ∨ bits = 0x8000000000000000 := by
    rcases h with h | h
    · exact .inl (UInt64.toNat_inj.1 h)
    · exact .inr (UInt64.toNat_inj.1 h)
  rcases hbits with rfl | rfl
  · exact (by decide : ¬ (0 : Float) < Float.ofBits 0)
  · exact (by decide : ¬ (0 : Float) < Float.ofBits 0x8000000000000000)

/-- What is above zero is not equal to it. -/
theorem Value.equal_zero_of_pos {x : Float} (h : 0 < x) : (Value.float x).equal (.int 0) = false := by
  rw [← Bool.not_eq_true]
  intro heq
  have hcompare : (Parts.ofFloat x).compareInt 0 = some .eq := by
    unfold Value.equal at heq
    simpa [Value.quantity?, Quantity.equal, Quantity.compareFloat] using heq
  exact Number.not_pos_of_bits (Parts.bits_of_compareInt x.toBits.toNat_lt hcompare) h

/-! ## The rate of a run -/

/-- The product of integers is made one factor after the other, and never fails. -/
theorem Quality.foldlM_times_int [Machine] : ∀ (factors : List Int) (total : Int),
    (factors.map Value.int).foldlM
      (fun (total : Multiple) v => do total.times (← Multiple.ofValue v)) (.number (.int total))
      = .ok (.number (.int (factors.foldl (· * ·) total)))
  | [], _ => rfl
  | factor :: rest, total => by
    rw [List.map_cons, List.foldlM_cons, List.foldl_cons]
    exact foldlM_times_int rest (total * factor)

namespace Report

/-- Every operation counts: for a point, a cluster, a coordinate, and a round. -/
def operations (k width : Nat) (r : RunResult Float) : Int :=
  [(r.labels.length : Int), (k : Int), (width : Int), r.rounds].foldl (· * ·) 1

/-- The rate of a run can be told unless the number of its operations has no double. -/
theorem speed_ends [Machine] (k width : Nat) (r : RunResult Float) :
    Outcome.Ends (speed k width r) (fun _ => True)
    (fun f => f = .operand .tooLarge ∧ floatOfInt? (operations k width r) = none) := by
  unfold speed
  split
  · rename_i htime
    have htotal := Quality.foldlM_times_int [(r.labels.length : Int), k, width, r.rounds] 1
    simp only [List.map_cons, List.map_nil] at htotal
    rw [Outcome.ends_bind]
    simp only [Quality.throughput, Value.equal_zero_of_pos htime, htotal, Bool.false_eq_true, if_false]
    show Outcome.Ends (Outcome.ofOperands
      ((floatOfInt? (operations k width r)).elim (.error .tooLarge) .ok >>= fun x =>
        pure (x / r.timings.total))) _ _
    cases hdouble : floatOfInt? (operations k width r) with
    | none => exact ⟨rfl, rfl⟩
    | some x => exact True.intro
  · exact True.intro

end Report

/-! ## The document -/

/-- That there is no directory for a file is a failure of the files. -/
theorem Files.Tree.fault_of_directoryOf {t : Tree} {location : String} {steps : List String}
    {fault : FileFault} (h : t.directoryOf location steps = .error fault) : fault.isOfFiles = true := by
  unfold directoryOf at h
  split at h <;> cases h <;> rfl

/-- A failure of writing is one of the files, or the path is none. -/
theorem Files.Tree.fault_of_write {t : Tree} {location : String} {c : Content} {fault : FileFault}
    (h : t.write location c = .error fault) :
    fault.isOfFiles = true ∨ Path.faultOf? location = some fault := by
  unfold write at h
  split at h
  · cases h
    exact .inr ‹_›
  · -- the directory is found, or not, and then the file itself
    refine .inl ?_
    dsimp only at h
    cases hdirectory : t.directoryOf location
        (if location.endsWith "/" then (Path.stepsOf location).dropLast else Path.stepsOf location) with
    | error fault' =>
      rw [hdirectory] at h
      cases h
      exact fault_of_directoryOf hdirectory
    | ok _ =>
      rw [hdirectory] at h
      change (if location.endsWith "/" = true then _ else _) = _ at h
      split at h
      · cases h
        rfl
      · split at h <;> cases h <;> rfl

namespace Report

/-- The document is written unless the files are in the way or its path is none. -/
theorem write_ends (tree : Tree) (output text : String) :
    Outcome.Ends (write tree output text) (fun _ => True)
      (fun f => ∃ fault, f = .file fault ∧
        (fault.isOfFiles = true ∨ Path.faultOf? output = some fault)) := by
  unfold write
  split
  · exact True.intro
  · rw [Outcome.ends_bind]
    refine Outcome.ends_of (fun _ _ => True.intro) fun f hf => ?_
    obtain ⟨fault, hfault, rfl⟩ := mapError_eq_error.1 hf
    exact ⟨fault, rfl, Tree.fault_of_write hfault⟩

/-- A model that a run has made is told about, unless its rate or its document is at fault. -/
theorem tell_ends [Machine] {m : Model Float} (tree : Tree) {r : RunResult Float} (hresult : m.result = some r)
    {k width : Nat} (hshape : m.centroids.shape = [k, width]) (output : String) :
    Outcome.Ends (tell tree m output).1 (fun _ => True)
      (fun f => (f = .operand .tooLarge ∧ floatOfInt? (operations k width r) = none) ∨
        ∃ fault, f = .file fault ∧
          (fault.isOfFiles = true ∨ Path.faultOf? output = some fault)) := by
  have hwidth : m.centroids.width = .ok width := by simp [Tensor.width, Tensor.axis, hshape]
  have hrows : m.centroids.rowTotal = k := by simp [Tensor.rowTotal, hshape]
  unfold tell
  simp only [hresult, hwidth, hrows]
  have hspeed := speed_ends k width r
  cases hrate : speed k width r with
  | error f => exact .inl (hspeed.of_error hrate)
  | ok rate =>
    have hwrite := write_ends tree output (documentText k m.centroids r)
    dsimp only
    cases hwritten : write tree output (documentText k m.centroids r) with
    | error f => exact .inr (hwrite.of_error hwritten)
    | ok _ => exact True.intro

end Report

end ClusterRounds
