/-
  ClusterRounds.Proofs.Packing.Bits

  What is read of packed bits, the most significant one of each octet first. `TakesBits` says that a
  reading takes exactly some bits wherever they stand, and composes as `Takes` does.
-/

import ClusterRounds.Packing.Bzip
import ClusterRounds.Proofs.Packing.Reading
import Mathlib.Data.List.Induction

namespace ClusterRounds.Packing

open Bzip (bitsOf)

/-! ## Bits of octets -/

/-- The bits of octets, the most significant one of each octet first. -/
def bitsOfOctets (cs : List UInt8) : List Bool := cs.flatMap fun c => bitsOf 8 c.toNat

theorem length_bitsOf (count n : Nat) : (bitsOf count n).length = count := by
  simp [bitsOf]

theorem bitsOf_succ (count n : Nat) : bitsOf (count + 1) n = n.testBit count :: bitsOf count n := by
  have hfirst : count + 1 - 1 - 0 = count := by omega
  rw [bitsOf, List.range_succ_eq_map, List.map_cons, List.map_map, hfirst, bitsOf]
  congr 1
  refine List.map_congr_left fun i _ => ?_
  have hplace : count + 1 - 1 - (i + 1) = count - 1 - i := by omega
  show n.testBit _ = n.testBit _
  rw [hplace]

theorem length_bitsOfOctets (cs : List UInt8) : (bitsOfOctets cs).length = 8 * cs.length := by
  induction cs with
  | nil => rfl
  | cons c cs ih =>
    rw [bitsOfOctets, List.flatMap_cons, List.length_append, length_bitsOf, ← bitsOfOctets, ih,
      List.length_cons]
    omega

theorem getElem?_bitsOfOctets : ∀ (cs : List UInt8) (p : Nat),
    (bitsOfOctets cs)[p]? = cs[p / 8]?.map fun c => c.toNat.testBit (7 - p % 8)
  | [], p => by simp [bitsOfOctets]
  | c :: cs, p => by
    rw [bitsOfOctets, List.flatMap_cons, ← bitsOfOctets]
    by_cases hp : p < 8
    · have hplace : p / 8 = 0 := by omega
      have hbit : p % 8 = p := by omega
      rw [List.getElem?_append_left (by rw [length_bitsOf]; exact hp), hplace, hbit]
      simp [bitsOf, hp]
    · have hplace : p / 8 = (p - 8) / 8 + 1 := by omega
      have hbit : p % 8 = (p - 8) % 8 := by omega
      rw [List.getElem?_append_right (by rw [length_bitsOf]; omega), length_bitsOf,
        getElem?_bitsOfOctets cs (p - 8), hplace, hbit, List.getElem?_cons_succ]

/-! ## Bits that are left -/

namespace Input

/-- The bits that have not been read. -/
def bits (i : Input) : List Bool := (bitsOfOctets i.octets.data.toList).drop i.place

/-- The input behind some bits more. -/
def skip (i : Input) (count : Nat) : Input := { i with place := i.place + count }

variable {i : Input} {bs rest : List Bool} {b : Bool}

theorem skip_skip (i : Input) (m n : Nat) : (i.skip m).skip n = i.skip (m + n) := by
  simp [skip, Nat.add_assoc]

theorem bits_skip (i : Input) (count : Nat) : (i.skip count).bits = i.bits.drop count := by
  rw [bits, bits, List.drop_drop]
  rfl

/-- Behind some octets stand the bits of the others. -/
theorem bits_between (before after : List UInt8) :
    (between before after).bits = bitsOfOctets after := by
  have hjoined : bitsOfOctets (before ++ after) = bitsOfOctets before ++ bitsOfOctets after :=
    List.flatMap_append
  show (bitsOfOctets (before ++ after)).drop (8 * before.length) = _
  rw [hjoined, ← length_bitsOfOctets, List.drop_left]

theorem bits_skip_of_append (h : i.bits = bs ++ rest) : (i.skip bs.length).bits = rest := by
  rw [bits_skip, h, List.drop_left]

theorem length_bits (i : Input) : i.bits.length = 8 * i.octets.size - i.place := by
  have hsize : i.octets.data.toList.length = i.octets.size := rfl
  rw [bits, List.length_drop, length_bitsOfOctets, hsize]

/-- Reading can take more steps than bits are left. -/
theorem length_bits_lt_bound (h : i.bits ≠ []) : i.bits.length < i.bound := by
  have hlength := i.length_bits
  have hsome := List.length_pos_iff.2 h
  unfold bound
  omega

end Input

variable {α β : Type} {r : Reading α} {bs cs : List Bool} {a : α} {b : β}

/-- A reading takes exactly the bits and makes something of them, wherever they stand. -/
def TakesBits {α : Type} (r : Reading α) (bs : List Bool) (a : α) : Prop :=
  ∀ (i : Input) (rest : List Bool), i.bits = bs ++ rest → r.run i = .ok (a, i.skip bs.length)

/-! ## Readings that follow one another -/

theorem takesBits_pure (a : α) : TakesBits (pure a) [] a := by
  intro i rest h
  rfl

theorem TakesBits.bind {f : α → Reading β} (h : TakesBits r bs a) (hf : TakesBits (f a) cs b) :
    TakesBits (r >>= f) (bs ++ cs) b := by
  intro i rest hbits
  rw [List.append_assoc] at hbits
  rw [run_bind (h i _ hbits), hf (i.skip bs.length) rest (i.bits_skip_of_append hbits), Input.skip_skip,
    List.length_append]

/-- What follows the last bits takes none. -/
theorem TakesBits.bind_end {f : α → Reading β} (h : TakesBits r bs a) (hf : TakesBits (f a) [] b) :
    TakesBits (r >>= f) bs b := by
  have hall := h.bind hf
  rwa [List.append_nil] at hall

/-- What has been read is only changed. -/
theorem TakesBits.bind_pure {f : α → β} (h : TakesBits r bs a) :
    TakesBits (r >>= fun x => pure (f x)) bs (f a) :=
  h.bind_end (f := fun x => pure (f x)) (takesBits_pure (f a))

/-! ## Bits and numbers -/

theorem takesBits_bit (b : Bool) : TakesBits (bit .high) [b] b := by
  intro i rest h
  have hfirst : (bitsOfOctets i.octets.data.toList)[i.place]? = some b := by
    have hfirst := congrArg List.head? h
    rwa [Input.bits, List.head?_drop] at hfirst
  rw [getElem?_bitsOfOctets, Option.map_eq_some_iff] at hfirst
  obtain ⟨c, hc, hbit⟩ := hfirst
  -- the bit stands in an octet that is there, so reading does not fail
  have hlt : i.place / 8 < i.octets.size := (List.getElem?_eq_some_iff.1 hc).1
  have hoctet : i.octets[i.place / 8] = c := by
    have hget := (List.getElem?_eq_some_iff.1 hc).2
    rwa [Array.getElem_toList] at hget
  unfold bit
  rw [run_get_bind, dif_pos hlt, hoctet, ← hbit]
  rfl

/-- A number is read back as far as it has room in the bits. -/
theorem takesBits_number (n m : Nat) : TakesBits (number .high n) (bitsOf n m) (m % 2 ^ n) := by
  induction n with
  | zero =>
    rw [Nat.pow_zero, Nat.mod_one]
    exact takesBits_pure 0
  | succ n ih =>
    have hvalue : (m.testBit n).toNat * 2 ^ n + m % 2 ^ n = m % 2 ^ (n + 1) := by
      rw [Nat.mod_pow_succ, Nat.toNat_testBit, Nat.mul_comm, Nat.add_comm]
    rw [bitsOf_succ, ← hvalue]
    exact (takesBits_bit (m.testBit n)).bind
      (ih.bind_pure (f := fun others => (m.testBit n).toNat * 2 ^ n + others))

theorem takesBits_number_of_lt {n m : Nat} (h : m < 2 ^ n) :
    TakesBits (number .high n) (bitsOf n m) m := by
  have hnumber := takesBits_number n m
  rwa [Nat.mod_eq_of_lt h] at hnumber

theorem takesBits_flags : ∀ bs, TakesBits (flags .high bs.length) bs bs
  | [] => takesBits_pure []
  | b :: bs => (takesBits_bit b).bind (takesBits_flags bs).bind_pure

/-! ## Bits that are written -/

namespace Bzip

/-- The value of bits, the most significant one first. -/
def valueOf (bs : List Bool) : Nat := bs.foldl (fun n b => 2 * n + b.toNat) 0

theorem valueOf_concat (bs : List Bool) (b : Bool) :
    valueOf (bs ++ [b]) = 2 * valueOf bs + b.toNat := by
  rw [valueOf, List.foldl_append]
  rfl

theorem bitsOf_concat (count n : Nat) (b : Bool) :
    bitsOf (count + 1) (2 * n + b.toNat) = bitsOf count n ++ [b] := by
  have hhalf : (2 * n + b.toNat) / 2 = n := by
    have hb := b.toNat_le
    omega
  have hlast : (2 * n + b.toNat).testBit 0 = b := by cases b <;> simp [Nat.testBit_zero]
  rw [bitsOf, List.range_succ, List.map_append, List.map_singleton, Nat.add_sub_cancel,
    Nat.sub_self, hlast, bitsOf]
  congr 1
  refine List.map_congr_left fun i hi => ?_
  have hplace : count - i = count - 1 - i + 1 := by
    have := List.mem_range.1 hi
    omega
  rw [hplace, Nat.testBit_succ, hhalf]

theorem bitsOf_valueOf (bs : List Bool) : bitsOf bs.length (valueOf bs) = bs := by
  induction bs using List.reverseRecOn with
  | nil => rfl
  | append_singleton bs b ih =>
    rw [valueOf_concat, List.length_append, List.length_singleton, bitsOf_concat, ih]

theorem valueOf_lt (bs : List Bool) : valueOf bs < 2 ^ bs.length := by
  induction bs using List.reverseRecOn with
  | nil => decide
  | append_singleton bs b ih =>
    have hb := b.toNat_le
    rw [valueOf_concat, List.length_append, List.length_singleton, Nat.pow_succ]
    omega

/-- Eight bits make an octet, and the last ones are filled up with zeros. -/
theorem bitsOfOctets_octetsOf_of_ne_nil (fuel : Nat) {bits : List Bool} (h : bits ≠ []) :
    bitsOfOctets (octetsOf (fuel + 1) bits)
      = (bits.take 8 ++ List.replicate (8 - (bits.take 8).length) false)
        ++ bitsOfOctets (octetsOf fuel (bits.drop 8)) := by
  generalize height : bits.take 8 ++ List.replicate (8 - (bits.take 8).length) false = eight
  have hlength : eight.length = 8 := by
    rw [← height, List.length_append, List.length_replicate, List.length_take]
    omega
  have hvalue : (UInt8.ofNat (valueOf eight)).toNat = valueOf eight := by
    have hlt := valueOf_lt eight
    rw [hlength] at hlt
    rw [UInt8.toNat_ofNat', Nat.mod_eq_of_lt hlt]
  have heightBits := bitsOf_valueOf eight
  rw [hlength] at heightBits
  rw [octetsOf]
  · rw [height, ← valueOf, bitsOfOctets, List.flatMap_cons, hvalue, heightBits]
    rfl
  · exact h

/-- The bits that are filled up with zeros to octets are the bits of these octets. -/
theorem bitsOfOctets_octetsOf (fuel : Nat) : ∀ {bits : List Bool}, bits.length ≤ fuel →
    ∃ zeros < 8, bitsOfOctets (octetsOf fuel bits) = bits ++ List.replicate zeros false := by
  have hnil (fuel : Nat) : octetsOf fuel [] = [] := by cases fuel <;> rfl
  induction fuel with
  | zero =>
    intro bits h
    obtain rfl := List.length_eq_zero_iff.1 (Nat.le_zero.1 h)
    exact ⟨0, by decide, rfl⟩
  | succ fuel ih =>
    intro bits h
    by_cases hne : bits = []
    · refine ⟨0, by decide, ?_⟩
      rw [hne, hnil]
      rfl
    · have hsome := List.length_pos_iff.2 hne
      rw [bitsOfOctets_octetsOf_of_ne_nil fuel hne]
      by_cases hmany : 8 ≤ bits.length
      · have hrest : (bits.drop 8).length ≤ fuel := by
          rw [List.length_drop]
          omega
        obtain ⟨zeros, hzeros, hothers⟩ := ih hrest
        have hnone : 8 - (bits.take 8).length = 0 := by
          rw [List.length_take]
          omega
        refine ⟨zeros, hzeros, ?_⟩
        rw [hnone, List.replicate_zero, List.append_nil, hothers, ← List.append_assoc,
          List.take_append_drop]
      · have hall : bits.take 8 = bits := List.take_of_length_le (by omega)
        have hend : bits.drop 8 = [] := List.drop_of_length_le (by omega)
        refine ⟨8 - bits.length, by omega, ?_⟩
        rw [hall, hend, hnil]
        exact List.append_nil _

end Bzip

end ClusterRounds.Packing
