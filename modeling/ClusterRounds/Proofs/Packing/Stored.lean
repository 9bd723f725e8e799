/-
  ClusterRounds.Proofs.Packing.Stored

  Octets that are packed as they are, in blocks of a stream inside a member: reading takes the
  blocks one after the other up to the last one and finds the checksum and the size of all of them.
-/

import ClusterRounds.Packing.Gzip
import ClusterRounds.Proofs.Packing.Reading

namespace ClusterRounds.Packing

open Input (between)

namespace Deflate

/-- The first octet of a block of octets as they are tells whether it is the last one. -/
def marked (isLast : Bool) : UInt8 := if isLast then 1 else 0

variable {cs : List UInt8}

theorem number_within_marked (isLast : Bool) (before after : List UInt8) :
    (number .low 2).run (.within before 1 (marked isLast :: after))
      = .ok (0, .within before 3 (marked isLast :: after)) := by
  have hbits : (marked isLast).toNat.testBit 1 = false ∧ (marked isLast).toNat.testBit 2 = false := by
    cases isLast <;> decide
  unfold number
  rw [run_bind (bit_within (by decide)), hbits.1]
  unfold number
  rw [StateT.run_bind, run_bind (bit_within (by decide)), hbits.2]
  rfl

/-- A block of octets as they are behind its first octet. -/
def inside (cs : List UInt8) : List UInt8 :=
  Files.octets 2 cs.length ++ (Files.octets 2 (0xFFFF - cs.length) ++ cs)

theorem storedBlocks_succ (more : Nat) (cs : List UInt8) :
    storedBlocks (more + 1) cs = marked (more = 0) ::
      (inside (cs.take largestBlock) ++ storedBlocks more (cs.drop largestBlock)) := by
  have hmarked : (if more = 0 then (1 : UInt8) else 0) = marked (more = 0) := by
    by_cases h : more = 0 <;> simp [h, marked]
  rw [storedBlocks, hmarked, inside]
  simp only [List.append_assoc, List.cons_append, List.nil_append]

theorem stored_run (h : cs.length ≤ largestBlock) (out : ByteArray) (c : UInt8)
    (before after : List UInt8) :
    (stored out).run (.within before 3 (c :: (inside cs ++ after)))
      = .ok (cs.foldl ByteArray.push out, between (before ++ c :: inside cs) after) := by
  have hlength : cs.length < 256 ^ 2 := Nat.lt_of_le_of_lt h (by decide)
  have hcheck : 0xFFFF - cs.length < 256 ^ 2 := by omega
  have hsum : ¬ cs.length + (0xFFFF - cs.length) ≠ 0xFFFF := by
    have hmost : cs.length ≤ 0xFFFF := h
    omega
  have htakes : Takes (do
      let size ← word 2
      let check ← word 2
      if size + check ≠ 0xFFFF then throw broken
      return (← octets size).foldl ByteArray.push out)
      (inside cs) (cs.foldl ByteArray.push out) := by
    refine (takes_word_of_lt hlength).bind ((takes_word_of_lt hcheck).bind ?_)
    rw [if_neg hsum]
    exact (takes_octets cs).bind_pure (f := fun cs => cs.foldl ByteArray.push out)
  unfold stored
  rw [run_bind (align_within (by decide) (by decide)), htakes, List.append_assoc before]
  rfl

theorem blocks_run (h : cs.length ≤ largestBlock) (fuel : Nat) (out : ByteArray) (isLast : Bool)
    (before after : List UInt8) :
    (blocks (fuel + 1) out).run (between before (marked isLast :: (inside cs ++ after)))
      = (if isLast then pure (cs.foldl ByteArray.push out)
          else blocks fuel (cs.foldl ByteArray.push out) : Reading ByteArray).run
        (between (before ++ marked isLast :: inside cs) after) := by
  have hlast : (marked isLast).toNat.testBit 0 = isLast := by cases isLast <;> decide
  rw [← Input.within_zero, blocks, run_bind (bit_within (by decide)), hlast, run_get_bind,
    run_bind (number_within_marked isLast before _)]
  exact run_bind (stored_run h out _ before after)

theorem length_storedBlocks : ∀ more (cs : List UInt8), more ≤ (storedBlocks more cs).length
  | 0, _ => Nat.zero_le _
  | more + 1, cs => by
    have hothers := length_storedBlocks more (cs.drop largestBlock)
    rw [storedBlocks_succ, List.length_cons, List.length_append]
    omega

/-- One block is read by one step of the reading, and the last one ends it. -/
theorem takes_blocks (more : Nat) : ∀ (fuel : Nat) (cs : List UInt8) (out : ByteArray),
    cs.length ≤ (more + 1) * largestBlock → more < fuel →
    Takes (blocks fuel out) (storedBlocks (more + 1) cs) (cs.foldl ByteArray.push out) := by
  induction more with
  | zero =>
    intro fuel cs out hlength hfuel before after
    obtain ⟨fuel, rfl⟩ := Nat.exists_eq_add_of_lt hfuel
    have hsmall : cs.length ≤ largestBlock := by omega
    have hnone : storedBlocks 1 cs = marked true :: inside cs := by
      rw [storedBlocks_succ, List.take_of_length_le hsmall, storedBlocks, List.append_nil]
      rfl
    rw [hnone, List.cons_append, Nat.zero_add, blocks_run hsmall]
    rfl
  | succ more ih =>
    intro fuel cs out hlength hfuel before after
    obtain ⟨fuel, rfl⟩ := Nat.exists_eq_add_of_lt hfuel
    have hsmall : (cs.take largestBlock).length ≤ largestBlock := List.length_take_le ..
    have hothers : (cs.drop largestBlock).length ≤ (more + 1) * largestBlock := by
      rw [Nat.succ_mul] at hlength
      rw [List.length_drop]
      omega
    have hrest := ih (more + 1 + fuel) (cs.drop largestBlock)
      ((cs.take largestBlock).foldl ByteArray.push out) hothers (by omega)
    rw [← List.foldl_append, List.take_append_drop] at hrest
    rw [storedBlocks_succ, List.cons_append, List.append_assoc, blocks_run hsmall]
    show (blocks _ _).run _ = _
    rw [hrest, List.append_assoc before, List.cons_append]

theorem takes_unpacked (cs : List UInt8) : Takes unpacked (packed cs) ⟨cs.toArray⟩ := by
  intro before after
  have hmany : cs.length ≤ (cs.length / largestBlock + 1) * largestBlock := by
    have := Nat.lt_div_mul_add (a := cs.length) (b := largestBlock) (by decide)
    rw [Nat.add_mul, Nat.one_mul]
    omega
  have hfuel : cs.length / largestBlock < (between before (packed cs ++ after)).bound := by
    have := length_storedBlocks (cs.length / largestBlock + 1) cs
    rw [Input.bound_between, List.length_append, packed]
    omega
  have hblocks := takes_blocks _ _ cs .empty hmany hfuel before after
  rw [foldl_push_empty] at hblocks
  exact hblocks

end Deflate

namespace Gzip

theorem takes_header : Takes header [8, 0, 0, 0, 0, 0, 2, 255] () := by
  have hsix : Takes (octets 6) [0, 0, 0, 0, 2, 255] [0, 0, 0, 0, 2, 255] :=
    takes_octets [0, 0, 0, 0, 2, 255]
  refine (takes_octet 8).bind ((takes_octet 0).bind (hsix.discard.bind ?_))
  intro before after
  rw [List.append_nil]
  rfl

/-- Octets are packed into a mark, a header, a stream, and the checksum and the size. -/
theorem toList_pack (cs : ByteArray) : (pack cs).data.toList
    = 0x1F :: 0x8B :: ([8, 0, 0, 0, 0, 0, 2, 255] ++ (Deflate.packed cs.data.toList
      ++ (Files.octets 4 (lowSum cs).toNat ++ Files.octets 4 cs.size))) := by
  simp [pack, mark]

/-- The zeros behind the last octet are none. -/
theorem skipZeros_run (fuel : Nat) (before : List UInt8) :
    (skipZeros fuel).run (between before []) = .ok ((), between before []) := by
  cases fuel with
  | zero => rfl
  | succ fuel =>
    have hend : ¬ (between before []).octets[(between before []).octetsRead]? = some 0 := by
      rw [getElem?_neg _ _ (by simp)]
      exact nofun
    rw [skipZeros, run_get_bind, if_neg hend]
    rfl

/-- A member is taken with its checksum and its size, if nothing follows it. -/
theorem member_run (cs : ByteArray) : member.run (between [] (pack cs).data.toList)
    = .ok (cs, between (pack cs).data.toList []) := by
  have hsum : (lowSum cs).toNat < 256 ^ 4 := UInt32.toNat_lt _
  have hsame : (⟨cs.data.toList.toArray⟩ : ByteArray) = cs := rfl
  rw [toList_pack]
  unfold member
  rw [run_bind (octet_between _ _ _), run_bind (atEnd_between _ _)]
  dsimp only
  rw [if_neg (by simp), run_bind (octet_between _ _ _), if_neg (by decide),
    run_bind (takes_header _ _), run_bind (Deflate.takes_unpacked _ _ _), hsame,
    run_bind (takes_word_of_lt hsum _ _), run_bind ((takes_word 4 cs.size).run_last _),
    if_neg (by simp), run_get_bind, run_bind (skipZeros_run _ _)]
  simp only [List.append_assoc, List.cons_append, List.nil_append]
  rfl

/-- What is packed is found again. -/
theorem unpack_pack (cs : ByteArray) : unpack (pack cs) = .ok cs := by
  have hend (fuel : Nat) (before : List UInt8) :
      (members fuel cs).run (between before []) = .ok (cs, between before []) := by
    cases fuel with
    | zero => rfl
    | succ fuel =>
      rw [members, run_bind (atEnd_between _ _), List.isEmpty_nil, if_pos rfl]
      rfl
  obtain ⟨others, hothers⟩ : ∃ others, (pack cs).data.toList = 0x1F :: others := ⟨_, toList_pack cs⟩
  have hsize : (pack cs).size = others.length + 1 := by
    rw [← List.length_cons, ← hothers]
    rfl
  have hmember := member_run cs
  rw [hothers] at hmember
  have hmembers : (members (pack cs).size .empty).run (between [] (pack cs).data.toList)
      = .ok (cs, between (pack cs).data.toList []) := by
    have hempty : ByteArray.empty ++ cs = cs := ByteArray.empty_append
    rw [hsize, members, hothers, run_bind (atEnd_between _ _), if_neg (by simp), run_bind hmember,
      hempty, hend]
  show ((members (pack cs).size .empty).run (between [] (pack cs).data.toList)).map _ = _
  rw [hmembers]
  rfl

end Gzip

end ClusterRounds.Packing
