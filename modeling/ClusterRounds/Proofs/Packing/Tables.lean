/-
  ClusterRounds.Proofs.Packing.Tables

  What stands in front of the symbols of a block: which octets occur, which table belongs to each
  group of symbols, and the lengths of the codes, each by steps from the one before. All of it is
  read as it is written.
-/

import ClusterRounds.Proofs.Packing.Codes
import ClusterRounds.Proofs.Packing.Recency

namespace ClusterRounds.Packing

/-- A reading that looks at the input may take more steps than it takes bits, if it takes any. -/
theorem takesBits_get {α : Type} {f : Input → Reading α} {bs : List Bool} {a : α} (hne : bs ≠ [])
    (h : ∀ i : Input, bs.length < i.bound → TakesBits (f i) bs a) : TakesBits (get >>= f) bs a := by
  intro i rest hbits
  have hsome : i.bits ≠ [] := by
    rw [hbits]
    exact List.append_ne_nil_of_left_ne_nil hne rest
  have hroom := Input.length_bits_lt_bound hsome
  rw [hbits, List.length_append] at hroom
  rw [run_get_bind]
  exact h i (by omega) i rest hbits

namespace Bzip

/-! ## Steps up and down -/

/-- Is a length one that a code can have? -/
def IsLength (length : Nat) : Prop := 0 < length ∧ length ≤ longest

/-- The length some steps up or down. -/
def stepped (isDown : Bool) (length d : Nat) : Nat := if isDown then length - d else length + d

/-- A length that can be is looked at no further, and the next bits tell what becomes of it. -/
theorem steppedLength_succ {length : Nat} (h : IsLength length) (fuel : Nat) :
    steppedLength (fuel + 1) length = (do
      if ← bit .high then
        if ← bit .high then steppedLength fuel (length - 1) else steppedLength fuel (length + 1)
      else return length) := by
  have hinside : ¬ (length < 1 || longest < length : Bool) = true := by
    rw [Bool.or_eq_true, decide_eq_true_eq, decide_eq_true_eq]
    unfold IsLength at h
    omega
  rw [steppedLength, if_neg hinside]

/-- Each step is two bits, and one more ends them. -/
theorem takesBits_stepped (isDown : Bool) : ∀ (d : Nat) {fuel length : Nat},
    IsLength length → IsLength (stepped isDown length d) → d < fuel →
    TakesBits (steppedLength fuel length)
      ((List.replicate d [true, isDown]).flatten ++ [false]) (stepped isDown length d)
  | 0, fuel + 1, length, h, _, _ => by
    have hsame : stepped isDown length 0 = length := by cases isDown <;> rfl
    rw [steppedLength_succ h, hsame]
    exact (takesBits_bit false).bind (takesBits_pure length)
  | d + 1, fuel + 1, length, h, hend, hfuel => by
    -- a length between two that can be can be as well
    have hnext : stepped isDown length (d + 1) = stepped isDown (stepped isDown length 1) d := by
      cases isDown <;> simp [stepped] <;> omega
    have hinside : IsLength (stepped isDown length 1) := by
      cases isDown <;> simp [stepped, IsLength] at * <;> omega
    have hrest := takesBits_stepped isDown d hinside (hnext ▸ hend) (Nat.lt_of_succ_lt_succ hfuel)
    rw [steppedLength_succ h, hnext]
    refine (takesBits_bit true).bind ((takesBits_bit isDown).bind ?_)
    cases isDown <;> exact hrest

/-- The steps from a length to the next one lead to it. -/
theorem takesBits_steps {fuel before length : Nat} (hbefore : IsLength before)
    (hlength : IsLength length) (hfuel : (steps before length).length ≤ fuel) :
    TakesBits (steppedLength fuel before) (steps before length) length := by
  -- the steps all go one way, up or down
  have hsteps (isDown : Bool) (d : Nat) (heq : stepped isDown before d = length)
      (hbits : steps before length = (List.replicate d [true, isDown]).flatten ++ [false]) :
      TakesBits (steppedLength fuel before) (steps before length) length := by
    have hroom : d < fuel := by
      rw [hbits] at hfuel
      simp at hfuel
      omega
    have htakes := takesBits_stepped isDown d hbefore (heq ▸ hlength) hroom
    rwa [heq, ← hbits] at htakes
  rcases Nat.le_total before length with hle | hle
  · refine hsteps false (length - before) (by simp [stepped]; omega) ?_
    rw [steps, Nat.sub_eq_zero_of_le hle, List.replicate_zero, List.flatten_nil, List.append_nil]
  · refine hsteps true (before - length) (by simp [stepped]; omega) ?_
    rw [steps, Nat.sub_eq_zero_of_le hle]
    rfl

/-! ## Tables -/

/-- The steps to all lengths one after the other. -/
def allSteps (before : Nat) (lengths : List Nat) : List Bool :=
  ((before :: lengths).zip lengths).flatMap fun (before, length) => steps before length

theorem allSteps_cons (before length : Nat) (lengths : List Nat) :
    allSteps before (length :: lengths) = steps before length ++ allSteps length lengths := rfl

theorem takesBits_codeLengths {bound : Nat} : ∀ {lengths : List Nat} {before : Nat},
    IsLength before → (∀ length ∈ lengths, IsLength length) →
    (allSteps before lengths).length ≤ bound →
    TakesBits (codeLengths bound lengths.length before) (allSteps before lengths) lengths
  | [], _, _, _, _ => takesBits_pure []
  | length :: lengths, before, hbefore, hlengths, hroom => by
    obtain ⟨hlength, hlengths⟩ := List.forall_mem_cons.1 hlengths
    rw [allSteps_cons, List.length_append] at hroom
    rw [allSteps_cons]
    exact (takesBits_steps hbefore hlength (by omega)).bind
      (takesBits_codeLengths hlength hlengths (by omega)).bind_pure

/-- A table is read as the code of its lengths. -/
theorem takesBits_tables {lengths : List Nat} (hne : lengths ≠ [])
    (h : ∀ length ∈ lengths, IsLength length) : ∀ n,
    TakesBits (tables lengths.length n) (List.replicate n (table lengths)).flatten
      (List.replicate n (Code.ofLengths longest lengths))
  | 0 => takesBits_pure []
  | n + 1 => by
    have hfirst : IsLength (lengths.headD 0) := by
      obtain ⟨length, others, rfl⟩ := List.exists_cons_of_ne_nil hne
      exact h length List.mem_cons_self
    have hnumber : lengths.headD 0 < 2 ^ 5 := Nat.lt_of_le_of_lt hfirst.2 (by decide)
    have htable : table lengths = bitsOf 5 (lengths.headD 0) ++ allSteps (lengths.headD 0) lengths :=
      rfl
    have hnonempty : (List.replicate (n + 1) (table lengths)).flatten ≠ [] := by
      rw [List.replicate_succ, List.flatten_cons, htable, bitsOf_succ]
      simp
    refine takesBits_get hnonempty fun i hbound => ?_
    rw [List.replicate_succ, List.flatten_cons, htable, List.append_assoc] at hbound ⊢
    rw [List.length_append, List.length_append] at hbound
    refine (takesBits_number_of_lt hnumber).bind
      ((takesBits_codeLengths hfirst h (by omega)).bind ?_)
    exact (takesBits_tables hne h n).bind_pure
      (f := fun codes => Code.ofLengths longest lengths :: codes)

/-! ## Selectors -/

/-- Groups that all have the first table are read so. -/
theorem takesBits_selectors (tables : Nat) (known : List Nat) : ∀ n,
    TakesBits (selectors (tables + 1) n known) (List.replicate n false)
      (List.replicate n (known.headD 0))
  | 0 => takesBits_pure []
  | n + 1 => by
    have hunary : TakesBits (unary (tables + 1)) [false] 0 :=
      (takesBits_bit false).bind (takesBits_pure 0)
    have hothers := takesBits_selectors tables known n
    rw [List.replicate_succ, List.replicate_succ]
    show TakesBits _ ([false] ++ List.replicate n false) _
    refine hunary.bind ?_
    dsimp only
    rw [toFront_zero]
    exact hothers.bind_pure

/-! ## The octets that occur -/

/-- The octets that are marked as used. -/
def usedOctets (used : List Bool) : List UInt8 :=
  used.zipIdx.filterMap fun (isUsed, c) => if isUsed then some (UInt8.ofNat c) else none

theorem usedOctets_eq (used : List Bool) :
    usedOctets used = (used.zipIdx.filter (·.1)).map fun u => UInt8.ofNat u.2 := by
  unfold usedOctets
  induction used.zipIdx with
  | nil => rfl
  | cons u others ih =>
    obtain ⟨isUsed, c⟩ := u
    cases isUsed
    · exact ih
    · exact congrArg (UInt8.ofNat c :: ·) ih

theorem mem_usedOctets {used : List Bool} {c : UInt8} (h : used[c.toNat]? = some true) :
    c ∈ usedOctets used := by
  refine List.mem_filterMap.2 ⟨(true, c.toNat), List.mk_mem_zipIdx_iff_getElem?.2 h, ?_⟩
  exact congrArg some (UInt8.ofNat_toNat)

theorem length_usedOctets_le (used : List Bool) : (usedOctets used).length ≤ used.length := by
  have hle := List.length_filterMap_le (fun (isUsed, c) =>
    if isUsed then some (UInt8.ofNat c) else none) used.zipIdx
  rwa [List.length_zipIdx] at hle

/-- The octets by rows of sixteen. -/
def rowsOf (used : List Bool) : List (List Bool) :=
  (List.range 16).map fun i => (used.drop (16 * i)).take 16

/-- Rows are joined again. -/
theorem flatten_rows (used : List Bool) : ∀ k,
    ((List.range k).map fun i => (used.drop (16 * i)).take 16).flatten = used.take (16 * k)
  | 0 => rfl
  | k + 1 => by
    rw [List.range_succ, List.map_append, List.flatten_append, flatten_rows used k, Nat.mul_succ,
      List.take_add]
    simp

/-- A row in which no octet occurs is not written, and is known all the same. -/
theorem takesBits_row {row : List Bool} (h : row.length = 16) :
    TakesBits (if row.any id then flags .high 16 else return List.replicate 16 false)
      (if row.any id then row else []) row := by
  have hflags := takesBits_flags row
  rw [h] at hflags
  by_cases hany : row.any id = true
  · rw [if_pos hany, if_pos hany]
    exact hflags
  · have hrow : row = List.replicate 16 false := by
      refine List.eq_replicate_iff.2 ⟨h, fun b hb => ?_⟩
      rw [List.any_eq_true] at hany
      exact Bool.eq_false_iff.2 fun hset => hany ⟨b, hb, hset⟩
    rw [if_neg hany, if_neg hany, ← hrow]
    exact takesBits_pure row

theorem takesBits_rows : ∀ {rows : List (List Bool)}, (∀ row ∈ rows, row.length = 16) →
    TakesBits ((rows.map (·.any id)).mapM fun row =>
      if row then flags .high 16 else return List.replicate 16 false)
      (rows.filter (·.any id)).flatten rows
  | [], _ => takesBits_pure []
  | row :: rows, h => by
    obtain ⟨hrow, hrows⟩ := List.forall_mem_cons.1 h
    have hbits : ((row :: rows).filter (·.any id)).flatten
        = (if row.any id then row else []) ++ (rows.filter (·.any id)).flatten := by
      rw [List.filter_cons]
      split <;> rfl
    rw [List.map_cons, List.mapM_cons, hbits]
    exact (takesBits_row hrow).bind (takesBits_rows hrows).bind_pure

theorem takesBits_alphabet {used : List Bool} (h : used.length = 256) :
    TakesBits alphabet (alphabetBits used) (usedOctets used) := by
  have hrows : ∀ row ∈ rowsOf used, row.length = 16 := by
    intro row hrow
    obtain ⟨i, hi, rfl⟩ := List.mem_map.1 hrow
    have hi := List.mem_range.1 hi
    rw [List.length_take, List.length_drop]
    omega
  have hjoined : (rowsOf used).flatten = used := by
    rw [rowsOf, flatten_rows, List.take_of_length_le (by omega)]
  have hfirst := takesBits_flags ((rowsOf used).map (·.any id))
  rw [List.length_map, rowsOf, List.length_map, List.length_range] at hfirst
  refine hfirst.bind ?_
  have hall := (takesBits_rows hrows).bind_pure (f := fun rows => usedOctets rows.flatten)
  rwa [hjoined] at hall

end Bzip

end ClusterRounds.Packing
