/-
  ClusterRounds.Proofs.Packing.Codes

  Codes that are given by their lengths. The number of a symbol is found from the number of the
  first code of its length; all codes of a length stand behind the shorter ones, so bits that start
  with a longer code are taken for no shorter one, and reading finds the symbol again.
-/

import ClusterRounds.Proofs.Packing.Bits
import Mathlib.Tactic.Ring

namespace ClusterRounds.Packing

open Bzip (bitsOf)

namespace Code

variable {code : Code} {s first free l length n : Nat}

/-! ## The number of a symbol -/

/-- The length and the number of a symbol in the codes from a length on, of which `first` is the
    number of the first one. -/
def found (s : Nat) : Nat → Nat → Code → Option (Nat × Nat)
  | _, _, [] => none
  | first, l, symbols :: longer =>
    match symbols.idxOf? s with
    | some i => some (l + 1, first + i)
    | none => found s (2 * (first + symbols.length)) (l + 1) longer

theorem ofSymbol?_eq (code : Code) (s : Nat) : code.ofSymbol? s = found s 0 0 code := by
  have hfound (code : Code) : ∀ first l,
      ((code.zip (firsts first code)).zipIdx l).findSome? (fun e =>
        (e.1.1.idxOf? s).map fun i => (e.2 + 1, e.1.2 + i)) = found s first l code := by
    induction code with
    | nil => exact fun _ _ => rfl
    | cons symbols longer ih =>
      intro first l
      rw [firsts, List.zip_cons_cons, List.zipIdx_cons, List.findSome?_cons, found, ih]
      dsimp only
      cases symbols.idxOf? s <;> rfl
  exact hfound code 0 0

/-- The code of a symbol is behind the first code of its length. -/
theorem le_of_found : ∀ {code : Code} {first l : Nat}, found s first l code = some (length, n) →
    ∃ more, length = l + 1 + more ∧ first * 2 ^ more ≤ n
  | symbols :: longer, first, l, h => by
    rw [found] at h
    split at h
    case h_1 i _ =>
      cases h
      exact ⟨0, rfl, by omega⟩
    case h_2 =>
      obtain ⟨more, hlength, hle⟩ := le_of_found h
      refine ⟨more + 1, by omega, Nat.le_trans ?_ hle⟩
      rw [Nat.pow_succ, ← Nat.mul_assoc, Nat.mul_comm _ 2, ← Nat.mul_assoc]
      exact Nat.mul_le_mul_right _ (by omega)

/-- There is room for the number of a symbol in the bits of its code, if there is room for all
    codes. -/
theorem lt_of_found : ∀ {code : Code} {first l free : Nat}, found s first l code = some (length, n) →
    (spare? free code).isSome = true → first + free = 2 ^ (l + 1) → n < 2 ^ length
  | symbols :: longer, first, l, free, h, hspare, hfree => by
    rw [spare?] at hspare
    split at hspare
    case isTrue => cases hspare
    case isFalse hroom =>
      rw [found] at h
      split at h
      case h_1 i hi =>
        cases h
        obtain ⟨hlt, -, -⟩ := List.idxOf?_eq_some_iff.1 hi
        omega
      case h_2 =>
        refine lt_of_found h hspare ?_
        rw [Nat.pow_succ, ← hfree]
        omega

theorem exists_found : ∀ {code : Code} (first l : Nat), (∃ symbols ∈ code, s ∈ symbols) →
    ∃ length n, found s first l code = some (length, n)
  | symbols :: longer, first, l, h => by
    rw [found]
    split
    case h_1 i _ => exact ⟨_, _, rfl⟩
    case h_2 hnone =>
      obtain ⟨symbols', hmem, hs⟩ := h
      rcases List.mem_cons.1 hmem with rfl | hmem
      · exact absurd (List.isSome_idxOf?.2 hs) (by simp [hnone])
      · exact exists_found _ _ ⟨symbols', hmem, hs⟩

/-! ## Reading a symbol -/

/-- The bits behind those that have been read make the code of the symbol full. -/
theorem takesBits_symbolFrom (fault : ContentFault) : ∀ {code : Code} {first l more read m : Nat},
    found s first l code = some (l + 1 + more, read * 2 ^ (more + 1) + m % 2 ^ (more + 1)) →
    TakesBits (symbolFrom .high fault code first read) (bitsOf (more + 1) m) s
  | symbols :: longer, first, l, more, read, m, h => by
    have hvalue : read * 2 ^ (more + 1) + m % 2 ^ (more + 1)
        = (2 * read + (m.testBit more).toNat) * 2 ^ more + m % 2 ^ more := by
      rw [Nat.mod_pow_succ, Nat.toNat_testBit]
      ring
    rw [symbolFrom, bitsOf_succ]
    refine (takesBits_bit (m.testBit more)).bind ?_
    dsimp only
    rw [hvalue, found] at h
    generalize 2 * read + (m.testBit more).toNat = read' at *
    split at h
    case h_1 i hi =>
      -- the code ends here
      obtain ⟨hlength, hnumber⟩ := Prod.mk.inj (Option.some.inj h)
      obtain rfl : more = 0 := by omega
      rw [Nat.pow_zero, Nat.mod_one, Nat.mul_one, Nat.add_zero] at hnumber
      have hplace : read' - first = i := by omega
      obtain ⟨hlt, heq, -⟩ := List.idxOf?_eq_some_iff.1 hi
      rw [hplace, List.getElem?_eq_getElem hlt, heq]
      exact takesBits_pure s
    case h_2 =>
      -- the code is longer, so it is behind all codes of this length
      obtain ⟨more', hmore, hle⟩ := le_of_found h
      obtain rfl : more = more' + 1 := by omega
      have hbehind : first + symbols.length ≤ read' := by
        have hrest := Nat.mod_lt m (Nat.two_pow_pos (more' + 1))
        have hdouble : (first + symbols.length) * 2 ^ (more' + 1)
            = 2 * (first + symbols.length) * 2 ^ more' := by ring
        have hnext : (read' + 1) * 2 ^ (more' + 1) = read' * 2 ^ (more' + 1) + 2 ^ (more' + 1) :=
          Nat.succ_mul ..
        have hmost : (first + symbols.length) * 2 ^ (more' + 1) < (read' + 1) * 2 ^ (more' + 1) := by
          omega
        exact Nat.le_of_lt_succ (Nat.lt_of_mul_lt_mul_right hmost)
      rw [List.getElem?_eq_none (by omega)]
      have hlength : l + 1 + (more' + 1) = l + 1 + 1 + more' := by omega
      rw [hlength] at h
      exact takesBits_symbolFrom fault h

/-- The code of a symbol is read as the symbol. -/
theorem takesBits_symbol (fault : ContentFault) (hpossible : code.isPossible = true)
    (h : code.ofSymbol? s = some (length, n)) :
    TakesBits (code.symbol .high fault) (bitsOf length n) s := by
  rw [ofSymbol?_eq] at h
  obtain ⟨more, rfl, -⟩ := le_of_found h
  have hlt := lt_of_found h hpossible rfl
  -- nothing has been read yet, so the number is that of the bits
  have hlength : 0 + 1 + more = more + 1 := by omega
  rw [hlength] at hlt ⊢
  refine takesBits_symbolFrom fault (l := 0) ?_
  rw [h, Nat.mod_eq_of_lt hlt, Nat.zero_mul, Nat.zero_add n, hlength]

/-! ## Lengths -/

/-- The symbols of a length. -/
def level (lengths : List Nat) (length : Nat) : List Nat :=
  lengths.zipIdx.filterMap fun (l, symbol) => if l = length then some symbol else none

theorem ofLengths_eq (longest : Nat) (lengths : List Nat) :
    ofLengths longest lengths = (List.range longest).map fun l => level lengths (l + 1) := rfl

theorem mem_level {lengths : List Nat} : s ∈ level lengths length ↔ lengths[s]? = some length := by
  unfold level
  simp only [List.mem_filterMap, Prod.exists, List.mem_zipIdx_iff_getElem?]
  constructor
  · rintro ⟨l, symbol, hl, h⟩
    split at h
    · cases h
      rwa [← ‹l = length›]
    · cases h
  · intro h
    exact ⟨length, s, h, by simp⟩

theorem length_level (lengths : List Nat) (length : Nat) :
    (level lengths length).length = lengths.count length := by
  have hcount : ∀ first, ((lengths.zipIdx first).filterMap fun (l, symbol) =>
      if l = length then some symbol else none).length = lengths.count length := by
    induction lengths with
    | nil => exact fun _ => rfl
    | cons l lengths ih =>
      intro first
      rw [List.zipIdx_cons, List.filterMap_cons, List.count_cons]
      by_cases hl : l = length
      · simp [hl, ih]
      · simp [hl, ih]
  exact hcount 0

/-- Every symbol that has a length has a code. -/
theorem exists_ofSymbol? {longest : Nat} {lengths : List Nat} (hs : lengths[s]? = some length)
    (hsome : 0 < length) (hmost : length ≤ longest) :
    ∃ length n, (ofLengths longest lengths).ofSymbol? s = some (length, n) := by
  simp only [ofSymbol?_eq]
  refine exists_found 0 0 ⟨level lengths length, List.mem_map.2 ⟨length - 1, ?_, ?_⟩, mem_level.2 hs⟩
  · rw [List.mem_range]
    omega
  · show level lengths (length - 1 + 1) = _
    rw [Nat.sub_add_cancel hsome]

/-- Lengths without codes double the codes that are free. -/
theorem spare?_replicate (code : Code) : ∀ (m free : Nat),
    spare? free (List.replicate m [] ++ code) = spare? (free * 2 ^ m) code
  | 0, free => by simp
  | m + 1, free => by
    rw [List.replicate_succ, List.cons_append, spare?, List.length_nil, if_neg (Nat.not_lt_zero _),
      spare?_replicate code m, Nat.sub_zero]
    congr 1
    ring

/-- Lengths that are one of two make codes of these two lengths only. -/
theorem ofLengths_of_two {k more : Nat} {lengths : List Nat}
    (h : ∀ l ∈ lengths, l = k + 1 ∨ l = k + 2) :
    ofLengths (k + (2 + more)) lengths = List.replicate k [] ++ (level lengths (k + 1)
      :: level lengths (k + 2) :: List.replicate more []) := by
  have hnone {l : Nat} (hfirst : l ≠ k + 1) (hsecond : l ≠ k + 2) : level lengths l = [] := by
    refine List.eq_nil_iff_forall_not_mem.2 fun s hs => ?_
    have hl := h l (List.mem_of_getElem? (mem_level.1 hs))
    omega
  rw [ofLengths_eq, List.range_add, List.range_add, List.map_append]
  congr 1
  · refine List.eq_replicate_iff.2 ⟨by simp, fun symbols hsymbols => ?_⟩
    obtain ⟨l, hl, rfl⟩ := List.mem_map.1 hsymbols
    have := List.mem_range.1 hl
    exact hnone (by omega) (by omega)
  · have hrest : (List.range more).map (fun l => level lengths (k + (2 + l) + 1))
        = List.replicate more [] :=
      List.eq_replicate_iff.2 ⟨by simp, fun symbols hsymbols => by
        obtain ⟨l, -, rfl⟩ := List.mem_map.1 hsymbols
        exact hnone (by omega) (by omega)⟩
    rw [← hrest, List.map_map, List.map_append, List.map_map]
    rfl

end Code

namespace Bzip

/-! ## Codes of about equal lengths -/

/-- The lengths of even codes: how many are short and how many are long. -/
theorem evenLengths_eq {symbols : Nat} (h : 3 ≤ symbols) : ∃ k short long,
    evenLengths symbols = List.replicate short (k + 1) ++ List.replicate long (k + 2) ∧
      short + long = symbols ∧ short ≤ 2 ^ (k + 1) ∧ long = 2 * (2 ^ (k + 1) - short) ∧
      2 ^ (k + 1) < symbols := by
  have hone : 1 ≤ (symbols - 1).log2 := by
    rw [Nat.le_log2 (by omega)]
    omega
  obtain ⟨k, hk⟩ := Nat.exists_eq_add_of_le hone
  have hleast : 2 ^ (symbols - 1).log2 ≤ symbols - 1 := Nat.log2_self_le (by omega)
  have hmost : symbols - 1 < 2 ^ ((symbols - 1).log2 + 1) := Nat.lt_log2_self
  rw [hk, Nat.add_comm 1 k] at hleast hmost
  rw [Nat.pow_succ _ (k + 1)] at hmost
  refine ⟨k, symbols - 2 * (symbols - 2 ^ (k + 1)), 2 * (symbols - 2 ^ (k + 1)), ?_, by omega,
    by omega, by omega, by omega⟩
  rw [evenLengths, hk, Nat.add_comm 1 k]
  rfl

variable {symbols : Nat}

theorem length_evenLengths (h : 3 ≤ symbols) : (evenLengths symbols).length = symbols := by
  obtain ⟨k, short, long, heq, hsum, -⟩ := evenLengths_eq h
  rw [heq, List.length_append, List.length_replicate, List.length_replicate, hsum]

/-- Even codes have one of two lengths, and both are short enough. -/
theorem mem_evenLengths (h : 3 ≤ symbols) (hmost : symbols ≤ 2 ^ 19) :
    ∀ l ∈ evenLengths symbols, 0 < l ∧ l ≤ longest := by
  obtain ⟨k, short, long, heq, -, -, -, hleast⟩ := evenLengths_eq h
  have hk : k + 1 < 19 := (Nat.pow_lt_pow_iff_right (by decide)).1 (Nat.lt_of_lt_of_le hleast hmost)
  rw [heq, longest]
  intro l hl
  rcases List.mem_append.1 hl with hl | hl <;>
  · obtain rfl := List.eq_of_mem_replicate hl
    omega

/-- Even codes have room for all symbols. -/
theorem isPossible_even (h : 3 ≤ symbols) (hmost : symbols ≤ 2 ^ 19) :
    (Code.ofLengths longest (evenLengths symbols)).isPossible = true := by
  obtain ⟨k, short, long, heq, hsum, hshort, hlong, hleast⟩ := evenLengths_eq h
  have hk : k + 1 < 19 := (Nat.pow_lt_pow_iff_right (by decide)).1 (Nat.lt_of_lt_of_le hleast hmost)
  obtain ⟨more, hmore⟩ : ∃ more, longest = k + (2 + more) := ⟨18 - k, by rw [longest]; omega⟩
  have hlengths : ∀ l ∈ evenLengths symbols, l = k + 1 ∨ l = k + 2 := by
    rw [heq]
    intro l hl
    exact (List.mem_append.1 hl).imp List.eq_of_mem_replicate List.eq_of_mem_replicate
  have hcount : (evenLengths symbols).count (k + 1) = short ∧
      (evenLengths symbols).count (k + 2) = long := by
    rw [heq, List.count_append, List.count_append]
    simp [List.count_replicate]
  -- the long codes take up all that the short ones have left
  have hend : Code.spare? 0 (List.replicate more []) = some 0 := by
    have hspare := Code.spare?_replicate [] more 0
    rw [List.append_nil, Nat.zero_mul] at hspare
    exact hspare
  have hfree : 2 * 2 ^ k = 2 ^ (k + 1) := by rw [Nat.pow_succ, Nat.mul_comm]
  rw [Code.isPossible, hmore, Code.ofLengths_of_two hlengths, Code.spare?_replicate, hfree,
    Code.spare?, Code.length_level, hcount.1, if_neg (Nat.not_lt.2 hshort), ← hlong, Code.spare?,
    Code.length_level, hcount.2, if_neg (Nat.lt_irrefl _), Nat.sub_self, hend]
  rfl

/-- Every symbol has an even code. -/
theorem exists_even {s : Nat} (h : 3 ≤ symbols) (hmost : symbols ≤ 2 ^ 19) (hs : s < symbols) :
    ∃ length n, (Code.ofLengths longest (evenLengths symbols)).ofSymbol? s = some (length, n) := by
  have hlt : s < (evenLengths symbols).length := by rwa [length_evenLengths h]
  obtain ⟨hsome, hlongest⟩ := mem_evenLengths h hmost _ (List.getElem_mem hlt)
  exact Code.exists_ofSymbol? (List.getElem?_eq_getElem hlt) hsome hlongest

end Bzip

end ClusterRounds.Packing
