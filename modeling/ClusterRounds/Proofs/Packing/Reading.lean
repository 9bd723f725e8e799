/-
  ClusterRounds.Proofs.Packing.Reading

  What is read of packed octets. `Takes` says that a reading takes exactly some octets, whatever
  stands around them; readings that follow one another take octets that follow one another.
-/

import ClusterRounds.Packing.Input

namespace ClusterRounds.Packing

open Files

/-! ## Octets that are put together -/

/-- Octets that are added one by one stand behind the others. -/
theorem foldl_push : ∀ (cs : List UInt8) (out : ByteArray),
    cs.foldl ByteArray.push out = ⟨out.data ++ cs.toArray⟩
  | [], out => by simp
  | c :: cs, out => by
    rw [List.foldl_cons, foldl_push cs]
    refine ByteArray.ext ?_
    show out.data.push c ++ cs.toArray = out.data ++ (c :: cs).toArray
    simp

theorem foldl_push_empty (cs : List UInt8) : cs.foldl ByteArray.push .empty = ⟨cs.toArray⟩ := by
  rw [foldl_push]
  exact ByteArray.ext (Array.empty_append)

/-! ## Readings that take octets -/

/-- Some octets have been read, and the others are left. -/
def Input.between (before after : List UInt8) : Input :=
  ⟨⟨(before ++ after).toArray⟩, 8 * before.length⟩

/-- A reading takes exactly the octets and makes something of them, whatever stands around them. -/
def Takes {α : Type} (r : Reading α) (cs : List UInt8) (a : α) : Prop :=
  ∀ before after,
    r.run (Input.between before (cs ++ after)) = .ok (a, Input.between (before ++ cs) after)

namespace Input

variable (before after : List UInt8)

@[simp] theorem octetsRead_between : (between before after).octetsRead = before.length := by
  unfold octetsRead between
  dsimp only
  omega

@[simp] theorem size_between :
    (between before after).octets.size = before.length + after.length := by
  show (before ++ after).toArray.size = _
  simp

theorem bound_between : (between before after).bound = 8 * after.length + 1 := by
  unfold bound
  rw [size_between]
  show _ - 8 * before.length = _
  omega

end Input

open Input (between)

variable {α β : Type} {r : Reading α} {cs ds : List UInt8} {a : α} {b : β}

theorem run_bind {r : Reading α} {f : α → Reading β} {i j : Input} (h : r.run i = .ok (a, j)) :
    (r >>= f).run i = (f a).run j := by
  rw [StateT.run_bind, h]
  rfl

theorem takes_pure (a : α) : Takes (pure a) [] a := by
  intro before after
  rw [List.append_nil]
  rfl

/-- The last octets are taken, and none is left. -/
theorem Takes.run_last (h : Takes r cs a) (before : List UInt8) :
    r.run (between before cs) = .ok (a, between (before ++ cs) []) := by
  have hlast := h before []
  rwa [List.append_nil] at hlast

theorem Takes.bind {f : α → Reading β} (h : Takes r cs a) (hf : Takes (f a) ds b) :
    Takes (r >>= f) (cs ++ ds) b := by
  intro before after
  rw [List.append_assoc, run_bind (h before (ds ++ after)), hf, List.append_assoc]

/-- What has been read is only changed. -/
theorem Takes.bind_pure {f : α → β} (h : Takes r cs a) :
    Takes (r >>= fun x => pure (f x)) cs (f a) := by
  have hf := h.bind (f := fun x => pure (f x)) (takes_pure (f a))
  rwa [List.append_nil] at hf

theorem Takes.discard (h : Takes r cs a) : Takes (discard r) cs () := by
  intro before after
  show ((fun _ => ()) <$> r).run _ = _
  rw [StateT.run_map, h]
  rfl

theorem run_get_bind (f : Input → Reading β) (i : Input) :
    ((get : Reading Input) >>= f).run i = (f i).run i := rfl

/-! ## Octets -/

theorem octet_run {i : Input} (h : i.octetsRead < i.octets.size) :
    octet.run i = .ok (i.octets[i.octetsRead], { i with place := 8 * (i.octetsRead + 1) }) := by
  unfold octet
  rw [StateT.run_bind]
  show (dite _ _ _ : Reading UInt8).run i = _
  rw [dif_pos h]
  rfl

theorem takes_octet (c : UInt8) : Takes octet [c] c := by
  intro before after
  have hlt : (between before ([c] ++ after)).octetsRead
      < (between before ([c] ++ after)).octets.size := by
    rw [Input.octetsRead_between, Input.size_between]
    simp
  have hc : (between before ([c] ++ after)).octets[(between before ([c] ++ after)).octetsRead] = c := by
    simp only [Input.octetsRead_between]
    simp [between, ByteArray.getElem_eq_getElem_data]
  rw [octet_run hlt, hc, Input.octetsRead_between]
  simp [between]

theorem octet_between (c : UInt8) (before after : List UInt8) :
    octet.run (between before (c :: after)) = .ok (c, between (before ++ [c]) after) :=
  takes_octet c before after

theorem takes_octets : ∀ cs, Takes (octets cs.length) cs cs
  | [] => takes_pure []
  | c :: cs => (takes_octet c).bind (takes_octets cs).bind_pure

theorem takes_word (count n : Nat) :
    Takes (word count) (Files.octets count n) (n % 256 ^ count) := by
  have hoctets := takes_octets (Files.octets count n)
  rw [length_octets] at hoctets
  have hword := hoctets.bind_pure (f := Files.ofOctets)
  rwa [ofOctets_octets] at hword

theorem takes_word_of_lt {count n : Nat} (h : n < 256 ^ count) :
    Takes (word count) (Files.octets count n) n := by
  have hword := takes_word count n
  rwa [Nat.mod_eq_of_lt h] at hword

theorem takes_highWord {count n : Nat} (h : n < 256 ^ count) :
    Takes (highWord count) (Files.octets count n).reverse n := by
  have hoctets := takes_octets (Files.octets count n).reverse
  rw [List.length_reverse, length_octets] at hoctets
  have hword := hoctets.bind_pure (f := fun cs => Files.ofOctets cs.reverse)
  rwa [List.reverse_reverse, ofOctets_octets, Nat.mod_eq_of_lt h] at hword

theorem atEnd_between (before after : List UInt8) :
    atEnd.run (between before after) = .ok (after.isEmpty, between before after) := by
  have hend : decide ((between before after).octets.size ≤ (between before after).octetsRead)
      = after.isEmpty := by
    rw [Input.size_between, Input.octetsRead_between]
    cases after <;> simp
  rw [← hend]
  rfl

/-! ## Bits of an octet -/

namespace Input

/-- Some bits of the first octet that is left have been read. -/
def within (before : List UInt8) (bits : Nat) (after : List UInt8) : Input :=
  { between before after with place := 8 * before.length + bits }

theorem within_zero (before after : List UInt8) : within before 0 after = between before after := rfl

end Input

variable {before after : List UInt8} {c : UInt8} {k : Nat}

theorem bit_within (hk : k < 8) : (bit .low).run (.within before k (c :: after))
    = .ok (c.toNat.testBit k, .within before (k + 1) (c :: after)) := by
  have hplace : (8 * before.length + k) / 8 = before.length := by omega
  have hshift : (8 * before.length + k) % 8 = k := by omega
  have hlt : (Input.within before k (c :: after)).place / 8
      < (Input.within before k (c :: after)).octets.size := by
    show (8 * before.length + k) / 8 < (between before (c :: after)).octets.size
    rw [Input.size_between, hplace]
    simp
  have hc : (Input.within before k (c :: after)).octets[(Input.within before k (c :: after)).place / 8]
      = c := by
    simp [Input.within, between, ByteArray.getElem_eq_getElem_data, hplace]
  unfold bit
  rw [StateT.run_bind]
  show (dite _ _ _ : Reading Bool).run _ = _
  rw [dif_pos hlt, hc]
  show Except.ok (c.toNat.testBit ((8 * before.length + k) % 8), _) = _
  rw [hshift]
  rfl

/-- The rest of an octet is left out. -/
theorem align_within (hk : 0 < k) (hmost : k ≤ 8) :
    align.run (.within before k (c :: after)) = .ok ((), between (before ++ [c]) after) := by
  have hread : (8 * before.length + k + 7) / 8 = before.length + 1 := by omega
  show Except.ok ((), { between before (c :: after) with
    place := 8 * ((8 * before.length + k + 7) / 8) }) = _
  rw [hread]
  simp [between]

end ClusterRounds.Packing
