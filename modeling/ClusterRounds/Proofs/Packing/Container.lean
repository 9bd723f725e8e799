/-
  ClusterRounds.Proofs.Packing.Container

  Octets that are packed as they are, in chunks of a block inside a container: reading takes the
  chunks up to the end of the block, and all sizes and checksums of the container are the ones
  that it finds. The sizes have room for octets that are not too many.
-/

import ClusterRounds.Packing.Xz
import ClusterRounds.Proofs.Packing.Reading

namespace ClusterRounds.Packing.Xz

open Input (between)

/-! ## Sizes -/

/-- A size is read back if its groups have room; the last group is no zero that could have been left
    out. -/
theorem takes_sizeFrom (more : Nat) : ∀ {n : Nat} {isFirst : Bool}, n < 128 ^ (more + 1) →
    (isFirst = true ∨ n ≠ 0) → Takes (sizeFrom (more + 1) isFirst) (sizeOctets (more + 1) n) n := by
  have hlast {most n : Nat} {isFirst : Bool} (hn : n < 0x80) (h : isFirst = true ∨ n ≠ 0) :
      Takes (sizeFrom (most + 1) isFirst) (sizeOctets (most + 1) n) n := by
    have hc : (UInt8.ofNat n).toNat = n := by
      rw [UInt8.toNat_ofNat']
      omega
    have hneeded : ¬ (decide (n = 0) && !isFirst) = true := by
      rcases h with rfl | h <;> simp [*]
    rw [sizeFrom, sizeOctets, if_pos hn]
    refine (takes_octet (UInt8.ofNat n)).bind ?_
    dsimp only
    rw [hc, if_pos hn, if_neg hneeded]
    exact takes_pure n
  induction more with
  | zero => exact fun hn h => hlast hn h
  | succ more ih =>
    intro n isFirst hn h
    by_cases hsmall : n < 0x80
    · exact hlast hsmall h
    · -- seven bits are read, and the set one above them tells that there are more
      have hc : (UInt8.ofNat (0x80 + n % 0x80)).toNat = 0x80 + n % 0x80 := by
        rw [UInt8.toNat_ofNat']
        omega
      have hothers : n / 0x80 < 128 ^ (more + 1) := by
        rw [Nat.div_lt_iff_lt_mul (by decide), ← Nat.pow_succ]
        exact hn
      have hsum : 0x80 + n % 0x80 - 0x80 + 0x80 * (n / 0x80) = n := by omega
      rw [sizeFrom, sizeOctets, if_neg hsmall]
      refine (takes_octet (UInt8.ofNat (0x80 + n % 0x80))).bind ?_
      dsimp only
      rw [hc, if_neg (by omega)]
      have hrest : Takes (sizeFrom (more + 1) false) (sizeOctets (more + 1) (n / 0x80)) (n / 0x80) :=
        ih hothers (.inr (by omega))
      have hsize := hrest.bind_pure (f := fun m => 0x80 + n % 0x80 - 0x80 + 0x80 * m)
      rwa [hsum] at hsize

theorem takes_size {n : Nat} (h : n < 2 ^ 63) : Takes size (sizeOctets 9 n) n :=
  takes_sizeFrom 8 h (.inl rfl)

/-! ## Chunks -/

variable {control : UInt8} {cs : List UInt8} {left : Left}

/-- A chunk of octets as they are says how many there are. -/
theorem takes_plainChunk (hne : cs ≠ []) (hmost : cs.length ≤ 0x10000) :
    Takes (plainChunk left) ((Files.octets 2 (cs.length - 1)).reverse ++ cs)
      { left with out := cs.foldl ByteArray.push left.out } := by
  have hlength : cs.length - 1 < 256 ^ 2 := by omega
  have hsize : cs.length - 1 + 1 = cs.length := by
    have := List.length_pos_iff.2 hne
    omega
  refine (takes_highWord hlength).bind ?_
  rw [hsize]
  exact (takes_octets cs).bind_pure
    (f := fun cs => { left with out := cs.foldl ByteArray.push left.out })

/-- What a chunk keeps of the ones before it: the first one forgets them all, and no other one may
    come first. -/
def kept (control : UInt8) (left : Left) : Left :=
  if control = 1 then ⟨left.out, some left.out.size, none⟩ else left

theorem chunks_run (hcontrol : control = 1 ∨ control = 2 ∧ left.base.isSome) (fuel : Nat)
    (before after : List UInt8) :
    (chunks (fuel + 1) left).run (between before (control :: after))
      = (plainChunk (kept control left) >>= chunks fuel).run (between (before ++ [control]) after) := by
  rw [chunks, run_bind (octet_between _ _ _)]
  rcases hcontrol with rfl | ⟨rfl, hbase⟩
  · rfl
  · have hpassed : ¬ (left.base.isNone || (decide (2 < (2 : UInt8).toNat)
        && decide ((2 : UInt8).toNat < 0x80))) = true := by
      rw [← Option.not_isSome, hbase]
      decide
    have hkept : ¬ (decide (0xE0 ≤ (2 : UInt8).toNat) || decide ((2 : UInt8).toNat = 1)) = true := by
      decide
    dsimp only
    rw [if_neg (by decide), if_neg hkept, if_neg hpassed, if_pos (by decide)]
    rfl

theorem plainChunks_of_ne_nil (room : Nat) (control : UInt8) (hne : cs ≠ []) :
    plainChunks (room + 1) control cs = control ::
      (((Files.octets 2 ((cs.take 0x10000).length - 1)).reverse ++ cs.take 0x10000)
        ++ plainChunks room 2 (cs.drop 0x10000)) := by
  rw [plainChunks]
  · simp only [List.append_assoc, List.cons_append]
  · exact hne

theorem length_plainChunks : ∀ (room : Nat) (control : UInt8) (cs : List UInt8), cs.length < room →
    cs.length < (plainChunks room control cs).length ∧
      (plainChunks room control cs).length ≤ 4 * cs.length + 1 := by
  intro room
  induction room with
  | zero => exact fun _ _ h => absurd h (Nat.not_lt_zero _)
  | succ room ih =>
    intro control cs hroom
    by_cases hne : cs = []
    · subst hne
      rw [plainChunks]
      · decide
      · exact nofun
    · have hhere : 0 < (cs.take 0x10000).length := by
        rw [List.length_take]
        have := List.length_pos_iff.2 hne
        omega
      have hall := congrArg List.length (List.take_append_drop 0x10000 cs)
      obtain ⟨hmore, hmost⟩ := ih 2 (cs.drop 0x10000) (by rw [List.length_append] at hall; omega)
      rw [plainChunks_of_ne_nil room control hne]
      simp only [List.length_cons, List.length_append, List.length_reverse,
        Files.length_octets] at hall ⊢
      omega

/-- The chunks are taken one after the other up to the end. -/
theorem takes_chunks (room : Nat) : ∀ (fuel : Nat) (control : UInt8) (cs : List UInt8) (left : Left),
    cs.length < room → cs.length < fuel → (control = 1 ∨ control = 2 ∧ left.base.isSome) →
    Takes (chunks fuel left) (plainChunks room control cs) (cs.foldl ByteArray.push left.out) := by
  induction room with
  | zero => exact fun _ _ _ _ h => absurd h (Nat.not_lt_zero _)
  | succ room ih =>
    intro fuel control cs left hroom hfuel hcontrol
    obtain ⟨fuel, rfl⟩ := Nat.exists_eq_add_of_lt hfuel
    by_cases hne : cs = []
    · subst hne
      intro before after
      rw [List.length_nil, Nat.zero_add, chunks, plainChunks]
      · exact run_bind (octet_between 0 before after)
      · exact nofun
    · intro before after
      have hlength := List.length_pos_iff.2 hne
      have hhere : cs.take 0x10000 ≠ [] := by
        rw [ne_eq, List.take_eq_nil_iff]
        exact not_or.2 ⟨by decide, hne⟩
      have hout : (kept control left).out = left.out := by
        unfold kept
        split <;> rfl
      -- behind the first chunk the octets before it are known, so the others may build on them
      have hrest := ih (cs.length + fuel) 2 (cs.drop 0x10000)
        { kept control left with out := (cs.take 0x10000).foldl ByteArray.push left.out }
        (by rw [List.length_drop]; omega) (by rw [List.length_drop]; omega) (.inr ⟨rfl, by
          unfold kept
          rcases hcontrol with rfl | ⟨rfl, hbase⟩
          · rfl
          · exact hbase⟩)
      have hchunk : Takes (plainChunk (kept control left)) _ _ :=
        takes_plainChunk hhere (List.length_take_le ..)
      rw [hout] at hchunk
      dsimp only at hrest
      rw [← List.foldl_append, List.take_append_drop] at hrest
      rw [plainChunks_of_ne_nil room control hne, List.cons_append, chunks_run hcontrol,
        hchunk.bind hrest, List.append_assoc before]
      rfl

/-! ## Blocks -/

/-- How many zeros fill octets up to a multiple of four. -/
def lack (cs : List UInt8) : Nat := (4 - cs.length % 4) % 4

theorem fill_run (before cs after : List UInt8) :
    (fill before.length).run (between (before ++ cs) (List.replicate (lack cs) 0 ++ after))
      = .ok ((), between (before ++ cs ++ List.replicate (lack cs) 0) after) := by
  have hcount : (4 - ((between (before ++ cs) (List.replicate (lack cs) 0 ++ after)).octetsRead
      - before.length) % 4) % 4 = lack cs := by
    rw [Input.octetsRead_between, List.length_append, Nat.add_sub_cancel_left, lack]
  have hzeros : (List.replicate (lack cs) (0 : UInt8)).any (· ≠ 0) = false := by simp
  have htakes := takes_octets (List.replicate (lack cs) (0 : UInt8))
  rw [List.length_replicate] at htakes
  rw [fill, run_get_bind, hcount, run_bind (htakes _ _), hzeros]
  rfl

theorem hasSum_self (cs : List UInt8) : hasSum cs (lowSum ⟨cs.toArray⟩).toNat = true :=
  decide_eq_true rfl

theorem takes_sum (cs : List UInt8) : Takes (word 4)
    (Files.octets 4 (lowSum ⟨cs.toArray⟩).toNat) (lowSum ⟨cs.toArray⟩).toNat :=
  takes_word_of_lt (UInt32.toNat_lt _)

/-- The header of a block, which tells no sizes, without its first octet. -/
def blockHeader : List UInt8 := [0, 0x21, 1, 0x16, 0, 0, 0]

theorem blockSizes_blockHeader :
    blockSizes.run' (.ofOctets ⟨blockHeader.toArray⟩) = .ok (none, none) := by
  rfl

/-- The chunks of a block. -/
def chunked (cs : ByteArray) : List UInt8 := plainChunks (cs.size + 1) 1 cs.data.toList

/-- A block behind its first octet. -/
def blockRest (cs : ByteArray) : List UInt8 :=
  blockHeader ++ (Files.octets 4 (lowSum ⟨(2 :: blockHeader).toArray⟩).toNat
    ++ (chunked cs ++ (List.replicate (lack (chunked cs)) 0
      ++ Files.octets 8 (longSum cs).toNat)))

/-- The size that a block is given in the index. -/
def blockSize (cs : ByteArray) : Nat := 12 + (chunked cs).length + 8

/-- A block is taken with its header, its chunks, zeros and its checksum. -/
theorem block_run (cs : ByteArray) (before after : List UInt8) :
    (block 4 2).run (between (before ++ [2]) (blockRest cs ++ after))
      = .ok ((cs, blockSize cs, cs.size), between (before ++ 2 :: blockRest cs) after) := by
  have hlong : Takes (word (sumSize 4)) (Files.octets 8 (longSum cs).toNat) (longSum cs).toNat :=
    takes_word_of_lt (UInt64.toNat_lt _)
  have hblockSum : hasBlockSum 4 cs (longSum cs).toNat = true := decide_eq_true rfl
  have hheader : Takes (octets (4 * (2 : UInt8).toNat - 1)) blockHeader blockHeader :=
    takes_octets blockHeader
  have hsizes : (blockSizes.run' (.ofOctets ⟨((2 :: blockHeader).drop 1).toArray⟩)).toOption
      = some (none, none) := congrArg Except.toOption blockSizes_blockHeader
  have hchunks (fuel : Nat) (hfuel : cs.size < fuel) :
      Takes (chunks fuel ⟨.empty, none, none⟩) (chunked cs) cs := by
    have htakes := takes_chunks (cs.size + 1) fuel 1 cs.data.toList ⟨.empty, none, none⟩
      (Nat.lt_succ_self _) hfuel (.inl rfl)
    rwa [foldl_push_empty] at htakes
  unfold block blockRest
  simp only [List.append_assoc]
  rw [run_get_bind, run_bind (hheader _ _), run_bind (takes_sum _ _ _), hasSum_self, hsizes]
  dsimp only
  have hfuel (before after : List UInt8) : cs.size < (between before (chunked cs ++ after)).bound := by
    have := (length_plainChunks (cs.size + 1) 1 cs.data.toList (Nat.lt_succ_self _)).1
    have hsize : cs.data.toList.length = cs.size := rfl
    rw [Input.bound_between, List.length_append, chunked]
    omega
  rw [if_neg (by decide), run_get_bind, run_bind (hchunks _ (hfuel _ _) _ _), run_get_bind]
  have hsize : (before ++ [2] ++ blockHeader
        ++ Files.octets 4 (lowSum ⟨(2 :: blockHeader).toArray⟩).toNat).length
        - ((before ++ [2]).length - 1)
      + ((before ++ [2] ++ blockHeader
        ++ Files.octets 4 (lowSum ⟨(2 :: blockHeader).toArray⟩).toNat ++ chunked cs).length
        - (before ++ [2] ++ blockHeader
          ++ Files.octets 4 (lowSum ⟨(2 :: blockHeader).toArray⟩).toNat).length)
      + sumSize 4 = blockSize cs := by
    have height : sumSize 4 = 8 := rfl
    simp only [List.length_append, Files.length_octets, height, blockSize, blockHeader,
      List.length_cons, List.length_nil]
    omega
  rw [if_neg (by simp), Input.octetsRead_between, Input.octetsRead_between,
    Input.octetsRead_between, run_bind (fill_run _ (chunked cs) _), run_bind (hlong _ _), hblockSum,
    if_neg (by decide), hsize]
  simp only [List.append_assoc, List.cons_append, List.nil_append]
  rfl

/-! ## Containers -/

/-- The octets between two places. -/
theorem extract_between (before cs after : List UInt8) :
    ((between (before ++ cs) after).octets.extract before.length
      (before ++ cs).length).data.toList = cs := by
  rw [ByteArray.data_extract]
  simp [between]

/-- The index without the zeros that fill it: how many blocks there are and their sizes. -/
def indexOctets (a b : Nat) : List UInt8 := 0 :: 1 :: (sizeOctets 9 a ++ sizeOctets 9 b)

/-- The index behind its first octet. -/
def indexRest (a b : Nat) : List UInt8 :=
  [1] ++ ((sizeOctets 9 a ++ sizeOctets 9 b) ++ (List.replicate (lack (indexOctets a b)) 0
    ++ Files.octets 4 (lowSum ⟨(filled (indexOctets a b)).toArray⟩).toNat))

theorem summed_indexOctets (a b : Nat) :
    summed (filled (indexOctets a b)) = 0 :: indexRest a b := by
  simp [summed, filled, indexOctets, indexRest, lack]

theorem index_run {a b : Nat} (ha : a < 2 ^ 63) (hb : b < 2 ^ 63) (before after : List UInt8) :
    (index [(a, b)]).run (between (before ++ [0]) (indexRest a b ++ after))
      = .ok ((summed (filled (indexOctets a b))).length,
        between (before ++ summed (filled (indexOctets a b))) after) := by
  have hone : Takes size [1] 1 := takes_size (n := 1) (by decide)
  have hsizes : Takes (sizes [(a, b)].length) (sizeOctets 9 a ++ sizeOctets 9 b) [(a, b)] :=
    (takes_size ha).bind ((takes_size hb).bind_pure)
  have hfront : before ++ [0] ++ [1] ++ (sizeOctets 9 a ++ sizeOctets 9 b)
      = before ++ indexOctets a b := by simp [indexOctets]
  have hfilled : indexOctets a b ++ List.replicate (lack (indexOctets a b)) 0
      = filled (indexOctets a b) := rfl
  have hstart : (between (before ++ [0]) (indexRest a b ++ after)).octetsRead - 1
      = before.length := by simp
  unfold index
  rw [run_get_bind, hstart, indexRest, List.append_assoc, run_bind (hone _ _), if_neg (by simp),
    List.append_assoc (sizeOctets 9 a ++ _), run_bind (hsizes _ _), if_neg (by simp), hfront,
    List.append_assoc (List.replicate _ _), run_bind (fill_run _ _ _), run_get_bind,
    Input.octetsRead_between, List.append_assoc before, extract_between,
    run_bind (takes_sum (filled (indexOctets a b)) _ _)]
  rw [hfilled, hasSum_self, if_neg (by decide), run_get_bind, Input.octetsRead_between,
    List.append_assoc before, List.length_append, Nat.add_sub_cancel_left]
  rfl

variable (cs : ByteArray)

/-- The index of a container of one block. -/
def indexed : List UInt8 := summed (filled (indexOctets (blockSize cs) cs.size))

/-- The octets that tell the size of the index and how blocks are summed. -/
def ending : List UInt8 := Files.octets 4 ((indexed cs).length / 4 - 1) ++ [0, 4]

theorem toList_pack : (pack cs).data.toList
    = mark ++ ([0, 4] ++ (Files.octets 4 (lowSum ⟨[0, 4].toArray⟩).toNat
      ++ (2 :: (blockRest cs ++ (0 :: (indexRest (blockSize cs) cs.size
        ++ (Files.octets 4 (lowSum ⟨(ending cs).toArray⟩).toNat ++ (ending cs ++ endMark)))))))) := by
  have hheader : (summed [2, 0, 0x21, 1, 0x16, 0, 0, 0]).length = 12 := by simp [summed]
  have hindex : summed (filled ([0, 1] ++ (sizeOctets 9 ((summed [2, 0, 0x21, 1, 0x16, 0, 0, 0]).length
      + (chunked cs).length + 8) ++ sizeOctets 9 cs.size))) = indexed cs := by
    rw [hheader]
    rfl
  unfold pack
  dsimp only
  rw [← chunked, hindex, ← ending, indexed, summed_indexOctets]
  simp [summed, filled, blockRest, blockHeader, lack]

theorem content_run (hblock : blockSize cs < 2 ^ 63) (hsize : cs.size < 2 ^ 63) {fuel : Nat}
    (hfuel : 1 < fuel) (before after : List UInt8) :
    (content 4 fuel [] .empty).run (between before (2 :: (blockRest cs
        ++ (0 :: (indexRest (blockSize cs) cs.size ++ after)))))
      = .ok ((cs, (indexed cs).length), between (before ++ 2 :: blockRest cs ++ indexed cs) after) := by
  obtain ⟨fuel, rfl⟩ := Nat.exists_eq_add_of_lt hfuel
  have hempty : ByteArray.empty ++ cs = cs := ByteArray.empty_append
  rw [show 1 + fuel + 1 = fuel + 1 + 1 by omega, content, run_bind (octet_between _ _ _),
    if_neg (by decide), run_bind (block_run cs _ _)]
  dsimp only
  rw [content, run_bind (octet_between _ _ _), if_pos rfl, hempty]
  exact run_bind (index_run hblock hsize _ _)

/-- A container is taken with one block and its index. -/
theorem container_run (hblock : blockSize cs < 2 ^ 63) (hsize : cs.size < 2 ^ 63) :
    container.run (between [] (pack cs).data.toList) = .ok (cs, between (pack cs).data.toList []) := by
  have hmark : Takes (octets 6) mark mark := takes_octets mark
  have hflags : Takes (octets 2) [0, 4] [0, 4] := takes_octets [0, 4]
  have hending : Takes (octets 6) (ending cs) (ending cs) := takes_octets (ending cs)
  have hendMark : Takes (octets 2) endMark endMark := takes_octets endMark
  have hkind : (([0, 4] : List UInt8).getD 1 0).toNat = 4 := by decide
  rw [toList_pack]
  unfold container
  rw [run_bind (hmark _ _), run_bind (hflags _ _), run_bind (takes_sum [0, 4] _ _), hasSum_self]
  dsimp only
  rw [if_neg (by decide), if_neg (by decide), run_get_bind, hkind,
    run_bind (content_run cs hblock hsize (by rw [Input.bound_between]; simp) _ _)]
  dsimp only
  rw [run_bind (takes_sum (ending cs) _ _), run_bind (hending _ _),
    run_bind (hendMark.run_last _), hasSum_self, if_neg (by decide), if_neg (fun h => h rfl),
    indexed, summed_indexOctets]
  simp only [List.append_assoc, List.cons_append, List.nil_append]
  rfl

theorem blockSize_lt (h : cs.size < 2 ^ 60) : blockSize cs < 2 ^ 63 := by
  have hmost := (length_plainChunks (cs.size + 1) 1 cs.data.toList (Nat.lt_succ_self _)).2
  have hsize : cs.data.toList.length = cs.size := rfl
  rw [blockSize, chunked]
  omega

/-- What is packed is found again. -/
theorem unpack_pack (h : cs.size < 2 ^ 60) : unpack (pack cs) = .ok cs := by
  obtain ⟨others, hothers⟩ : ∃ others, (pack cs).data.toList = 0xFD :: others :=
    ⟨_, toList_pack cs⟩
  have hfirst : (between [] (pack cs).data.toList).octets[([] : List UInt8).length]? = some 0xFD := by
    rw [hothers]
    rfl
  have hstream : anyStream.run (between [] (pack cs).data.toList)
      = .ok (cs, between (pack cs).data.toList []) := by
    rw [anyStream, run_get_bind, Input.octetsRead_between, hfirst]
    exact container_run cs (blockSize_lt cs h) (by omega)
  have hend (fuel : Nat) : streams fuel (between (pack cs).data.toList []) cs = .ok cs := by
    cases fuel with
    | zero => rfl
    | succ fuel => rw [streams, if_pos (by simp)]
  show (anyStream.run (between [] (pack cs).data.toList) >>= _) = _
  rw [hstream]
  exact hend _

end ClusterRounds.Packing.Xz
