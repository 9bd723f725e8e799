/-
  ClusterRounds.Proofs.Packing.Blocks

  What is packed block by block is found again. Symbols are read by one code wherever their groups
  end, a block is read as it is written, and so are all blocks one after the other; only a part of
  the last octet is left, which nothing looks at.
-/

import ClusterRounds.Proofs.Packing.Rotations
import ClusterRounds.Proofs.Packing.Runs
import ClusterRounds.Proofs.Packing.Tables

namespace ClusterRounds.Packing.Bzip

open Input (between)

/-! ## Symbols in codes -/

/-- The bits of a symbol. -/
def codeBits (code : Code) (s : Nat) : List Bool :=
  (code.ofSymbol? s).elim [] fun (length, n) => bitsOf length n

/-- Does a symbol have a code, one that is not empty? -/
def HasCode (code : Code) (s : Nat) : Prop :=
  ∃ length n, code.ofSymbol? s = some (length + 1, n)

variable {code : Code} {s : Nat}

theorem takesBits_codeBits (hpossible : code.isPossible = true) (h : HasCode code s) :
    TakesBits (code.symbol .high broken) (codeBits code s) s := by
  obtain ⟨length, n, hcode⟩ := h
  rw [codeBits, hcode]
  exact Code.takesBits_symbol broken hpossible hcode

theorem HasCode.length_codeBits_pos (h : HasCode code s) : 0 < (codeBits code s).length := by
  obtain ⟨length, n, hcode⟩ := h
  rw [codeBits, hcode]
  show 0 < (bitsOf (length + 1) n).length
  rw [length_bitsOf]
  exact Nat.succ_pos _

theorem length_le_flatMap_codeBits : ∀ {ss : List Nat}, (∀ s ∈ ss, HasCode code s) →
    ss.length ≤ (ss.flatMap (codeBits code)).length
  | [], _ => Nat.le_refl _
  | s :: ss, h => by
    obtain ⟨hs, hss⟩ := List.forall_mem_cons.1 h
    have hfirst := hs.length_codeBits_pos
    have hothers := length_le_flatMap_codeBits hss
    rw [List.flatMap_cons, List.length_append, List.length_cons]
    omega

/-- Codes of about equal lengths are there for all symbols. -/
theorem hasCode_even {symbols : Nat} (h : 3 ≤ symbols) (hmost : symbols ≤ 2 ^ 19)
    (hs : s < symbols) : HasCode (Code.ofLengths longest (evenLengths symbols)) s := by
  obtain ⟨length, n, hcode⟩ := exists_even h hmost hs
  have hfound := hcode
  rw [Code.ofSymbol?_eq] at hfound
  obtain ⟨more, rfl, -⟩ := Code.le_of_found hfound
  refine ⟨more, n, ?_⟩
  rw [hcode, Nat.zero_add, Nat.add_comm 1]

/-! ## The symbols of a block -/

section Content

variable {most last : Nat} {b : Block} {bits : List Bool} {out : Array UInt8}

/-- Where a group of symbols ends the next one starts, so it is enough to read symbols that are left
    for the first group. -/
theorem takesBits_group {count : Nat} (hcount : 0 < count)
    (h : ∀ {fuel left g}, count ≤ left + 1 + groupSize * g → count + g ≤ fuel →
      TakesBits (content most last (fuel + 1) (left + 1) (List.replicate (g + 1) code) b) bits out)
    {fuel left g : Nat} (hroom : count ≤ left + groupSize * g) (hfuel : count + g < fuel) :
    TakesBits (content most last fuel left (List.replicate (g + 1) code) b) bits out := by
  obtain ⟨fuel, rfl⟩ := Nat.exists_eq_add_of_lt hfuel
  cases left with
  | succ left => exact h hroom (by omega)
  | zero =>
    -- there are symbols left, so there is another group
    cases g with
    | zero => omega
    | succ g =>
      have hnext : TakesBits (content most last (count + (g + 1) + fuel) groupSize
          (List.replicate (g + 1) code) b) bits out := by
        have hsteps : count + (g + 1) + fuel = count + g + fuel + 1 := by omega
        have hfull : count ≤ groupSize - 1 + 1 + groupSize * g := by
          rw [Nat.zero_add, Nat.mul_succ] at hroom
          rw [groupSize] at hroom ⊢
          omega
        rw [hsteps]
        exact h hfull (by omega)
      exact hnext

/-- Symbols are read by one code, and what they write is what the block holds. -/
theorem takesBits_content (hpossible : code.isPossible = true) {ss : List Nat}
    (hwrites : Writes most last ss b out) (hcodes : ∀ s ∈ ss, HasCode code s) :
    ∀ {fuel left g}, ss.length ≤ left + groupSize * g → ss.length + g < fuel →
    TakesBits (content most last fuel left (List.replicate (g + 1) code) b)
      (ss.flatMap (codeBits code)) out := by
  induction hwrites with
  | digit hs hweight _ ih =>
    obtain ⟨hcode, hothers⟩ := List.forall_mem_cons.1 hcodes
    refine takesBits_group (Nat.succ_pos _) fun {fuel left g} hroom hfuel => ?_
    rw [List.replicate_succ, content, List.flatMap_cons]
    refine (takesBits_codeBits hpossible hcode).bind ?_
    rw [if_pos hs, if_neg (Nat.not_lt.2 hweight)]
    exact ih hothers (by omega) (by omega)
  | octet hs hlast hclosed hfree _ ih =>
    obtain ⟨hcode, hothers⟩ := List.forall_mem_cons.1 hcodes
    refine takesBits_group (Nat.succ_pos _) fun {fuel left g} hroom hfuel => ?_
    rw [List.replicate_succ, content, List.flatMap_cons]
    refine (takesBits_codeBits hpossible hcode).bind ?_
    rw [if_neg hs, hclosed]
    refine (takesBits_pure _).bind ?_
    dsimp only
    rw [if_neg hlast, if_neg (Nat.not_le.2 hfree)]
    exact ih hothers (by omega) (by omega)
  | last hlast hclosed =>
    refine takesBits_group (Nat.succ_pos _) fun {fuel left g} hroom hfuel => ?_
    rw [List.replicate_succ, content, List.flatMap_cons]
    refine (takesBits_codeBits hpossible (hcodes _ List.mem_cons_self)).bind ?_
    rw [if_neg hlast, hclosed]
    refine (takesBits_pure _).bind ?_
    rw [if_pos rfl]
    exact takesBits_pure _

end Content

/-! ## What a block is made of -/

section Block

variable (cs : List UInt8)

/-- The octets of a block, in which runs are short. -/
def shortened : Array UInt8 := (shortRuns cs.length cs).toArray

/-- The octets that occur in a block. -/
def used : List Bool := (List.range 256).map fun c => (shortened cs).contains (UInt8.ofNat c)

def known : List UInt8 := usedOctets (used cs)

/-- The ends of the sorted rotations. -/
def ends : List UInt8 := (Rotation.transformed (shortened cs)).1

/-- How recent the ends are. -/
def names : List Nat := recencies (known cs) (ends cs)

def symbols : List Nat := symbolsOf 0 (names cs) ++ [(known cs).length + 1]

def lengths : List Nat := evenLengths ((known cs).length + 2)

def blockCode : Code := Code.ofLengths longest (lengths cs)

def groups : Nat := ((symbols cs).length + groupSize - 1) / groupSize

/-- The bits of a block behind its mark. -/
def unmarkedBits : List Bool :=
  bitsOf 32 (highSum ⟨cs.toArray⟩).toNat ++ ([false]
    ++ (bitsOf 24 (Rotation.transformed (shortened cs)).2 ++ (alphabetBits (used cs)
      ++ (bitsOf 3 2 ++ (bitsOf 15 (groups cs) ++ (List.replicate (groups cs) false
        ++ ((List.replicate 2 (table (lengths cs))).flatten
          ++ (symbols cs).flatMap (codeBits (blockCode cs)))))))))

theorem length_used : (used cs).length = 256 := by
  simp [used]

theorem mem_known {c : UInt8} (h : c ∈ shortened cs) : c ∈ known cs := by
  refine mem_usedOctets ?_
  rw [used, List.getElem?_map, List.getElem?_range c.toNat_lt]
  simpa using h

theorem length_known_le : (known cs).length ≤ 256 := by
  have hle := length_usedOctets_le (used cs)
  rwa [length_used] at hle

theorem mem_known_of_ends : ∀ c ∈ ends cs, c ∈ known cs := fun _ hc =>
  mem_known cs (Array.mem_toList_iff.1 ((Rotation.perm_transformed (shortened cs)).mem_iff.1 hc))

theorem named_names : named (known cs) (names cs) = ends cs := named_recencies (mem_known_of_ends cs)

theorem length_names : (names cs).length = (shortened cs).size := by
  have hnamed := congrArg List.length (named_names cs)
  rw [length_named] at hnamed
  exact hnamed.trans (Rotation.perm_transformed (shortened cs)).length_eq

theorem lt_of_mem_names : ∀ name ∈ names cs, name + 1 < (known cs).length + 1 := fun name hname =>
  Nat.succ_lt_succ (lt_of_mem_recencies (mem_known_of_ends cs) name hname)

theorem size_shortened_le : (shortened cs).size ≤ 2 * cs.length := length_shortRuns cs.length cs

variable {cs}

theorem size_shortened_pos (h : cs ≠ []) : 0 < (shortened cs).size := by
  obtain ⟨c, rest, rfl⟩ := List.exists_cons_of_ne_nil h
  exact List.length_pos_iff.2 (shortRuns_ne_nil rest.length c rest)

theorem length_known_pos (h : cs ≠ []) : 0 < (known cs).length :=
  List.length_pos_of_mem (mem_known cs (Array.getElem_mem (size_shortened_pos h)))

theorem lt_of_mem_symbols (h : cs ≠ []) : ∀ s ∈ symbols cs, s < (known cs).length + 2 := by
  have hlast : 2 ≤ (known cs).length + 1 := Nat.succ_le_succ (length_known_pos h)
  refine List.forall_mem_append.2 ⟨fun s hs => ?_, List.forall_mem_singleton.2 (Nat.lt_succ_self _)⟩
  exact Nat.lt_succ_of_lt (lt_of_mem_symbolsOf hlast _ 0 (lt_of_mem_names cs) s hs)

theorem length_symbols_le : (symbols cs).length ≤ (shortened cs).size + 1 := by
  have hle := length_symbolsOf_le (names cs) 0
  rw [length_names] at hle
  rw [symbols, List.length_append, List.length_singleton]
  omega

/-- A block is its mark and what follows it. -/
theorem blockBits_eq (h : cs ≠ []) : blockBits cs = bitsOf 48 blockMark ++ unmarkedBits cs := by
  have hcodes : (symbols cs).flatMap (fun s => ((List.range ((known cs).length + 2)).toArray.map
      (codeBits (blockCode cs))).getD s []) = (symbols cs).flatMap (codeBits (blockCode cs)) := by
    refine List.flatMap_congr fun s hs => ?_
    have hlt := lt_of_mem_symbols h s hs
    simp [Array.getD, hlt]
  have hknown : (((used cs).zipIdx.filter (·.1)).map fun u => UInt8.ofNat u.2) = known cs :=
    (usedOctets_eq (used cs)).symm
  unfold blockBits
  dsimp only
  rw [← shortened, ← used, hknown, ← ends, ← names, ← symbols, ← lengths, ← blockCode, ← groups]
  refine (congrArg (_ ++ ·) hcodes).trans ?_
  simp [unmarkedBits]

/-! ## Reading a block -/

/-- The tables of a block are two times the same one. -/
theorem takesBits_blockTables (h : cs ≠ []) :
    TakesBits (tables ((known cs).length + 2) 2) (List.replicate 2 (table (lengths cs))).flatten
      (List.replicate 2 (blockCode cs)) := by
  have hknown := length_known_le cs
  have hsymbols : 3 ≤ (known cs).length + 2 := Nat.add_le_add_right (length_known_pos h) 2
  have hlength : (lengths cs).length = (known cs).length + 2 := length_evenLengths hsymbols
  have hne : lengths cs ≠ [] := List.ne_nil_of_length_pos (by omega)
  have htables := takesBits_tables hne (mem_evenLengths hsymbols (by omega)) 2
  rwa [hlength] at htables

theorem hasCode_symbols (h : cs ≠ []) : ∀ s ∈ symbols cs, HasCode (blockCode cs) s := by
  have hpos := length_known_pos h
  have hknown := length_known_le cs
  exact fun s hs => hasCode_even (by omega) (by omega) (lt_of_mem_symbols h s hs)

/-- The symbols of a block are read as the ends of its rotations. -/
theorem takesBits_symbols (h : cs ≠ []) {most : Nat} (hmost : (shortened cs).size ≤ most)
    {g fuel : Nat} (hgroups : (symbols cs).length ≤ groupSize * (g + 1))
    (hfuel : (symbols cs).length + g < fuel) :
    TakesBits (content most ((known cs).length + 1) fuel groupSize
      (List.replicate (g + 1) (blockCode cs)) ⟨#[], known cs, 0, 1⟩)
      ((symbols cs).flatMap (codeBits (blockCode cs))) (ends cs).toArray := by
  have hpos := length_known_pos h
  have hknown := length_known_le cs
  have hsymbols : 3 ≤ (known cs).length + 2 := Nat.add_le_add_right hpos 2
  have hlast : ¬ (known cs).length + 1 < 2 := by omega
  have hroom : (#[] : Array UInt8).size + 0 + (names cs).length ≤ most := by
    rw [length_names]
    simpa using hmost
  have hwrites := writes_symbolsOf hlast (names cs) 0 (b := ⟨#[], known cs, 0, 1⟩) rfl rfl hroom
    (lt_of_mem_names cs)
  rw [List.replicate_zero, List.nil_append, named_names, Array.empty_append] at hwrites
  refine takesBits_content (isPossible_even hsymbols (by omega)) hwrites (hasCode_symbols h) ?_ hfuel
  show (symbols cs).length ≤ _
  rw [Nat.mul_succ] at hgroups
  omega

/-- A block that is not too large is read as it is written. -/
theorem takesBits_block (h : cs ≠ []) (hsize : cs.length ≤ writtenSize) {most : Nat}
    (hmost : 2 * writtenSize ≤ most) :
    TakesBits (block most) (unmarkedBits cs) (⟨cs.toArray⟩, highSum ⟨cs.toArray⟩) := by
  have hshort := size_shortened_le cs
  have hpos := size_shortened_pos h
  have hplace := Rotation.place_lt hpos
  have hcount : (symbols cs).length ≤ (shortened cs).size + 1 := length_symbols_le
  have hsome : 0 < (symbols cs).length := by simp [symbols]
  rw [writtenSize] at hsize hmost
  obtain ⟨g, hg⟩ : ∃ g, groups cs = g + 1 := Nat.exists_eq_succ_of_ne_zero (by
    rw [groups, groupSize]
    omega)
  have hgroups : (symbols cs).length ≤ groupSize * (g + 1) ∧ g < (symbols cs).length := by
    have hcount := hg
    rw [groups, groupSize] at hcount
    rw [groupSize]
    omega
  unfold block unmarkedBits
  refine (takesBits_number_of_lt (UInt32.toNat_lt _)).bind ((takesBits_bit false).bind
    ((takesBits_number_of_lt (by omega)).bind ((takesBits_alphabet (length_used cs)).bind
    ((takesBits_number_of_lt (by decide)).bind ((takesBits_number_of_lt (by omega)).bind ?_)))))
  -- nothing in front of the symbols is refused
  have hfine : ¬ ((known cs).isEmpty || decide (2 < 2) || decide (6 < 2) || decide (groups cs = 0))
      = true := by
    have hknown := List.ne_nil_of_length_pos (length_known_pos h)
    simp [hknown, hg]
  have hchosen : (List.replicate (g + 1) ((List.range 2).headD 0)).map
      (fun t => (List.replicate 2 (blockCode cs)).toArray.getD t [])
      = List.replicate (g + 1) (blockCode cs) := List.map_replicate
  rw [← known]
  dsimp only
  rw [if_neg hfine, hg]
  refine (takesBits_selectors 1 (List.range 2) (g + 1)).bind ((takesBits_blockTables h).bind ?_)
  rw [hchosen]
  have hbits := length_le_flatMap_codeBits (hasCode_symbols h)
  refine takesBits_get (List.ne_nil_of_length_pos (by omega)) fun i hbound => ?_
  refine (takesBits_symbols h (by omega) hgroups.1 (by omega)).bind_end ?_
  -- the octets are there again, and so is their checksum
  have hsizeEnds : (ends cs).toArray.size = (shortened cs).size :=
    (Rotation.perm_transformed (shortened cs)).length_eq
  have hrestored : Rotation.restored (ends cs).toArray (Rotation.transformed (shortened cs)).2
      = ⟨shortened cs⟩ := Rotation.restored_transformed hpos
  have hlong : longRuns (shortened cs).toList 0 0 .empty = ⟨cs.toArray⟩ := by
    rw [shortened, longRuns_shortRuns cs.length .empty (Nat.le_refl _) (by decide) (.inl rfl),
      foldl_push_empty]
  have hinside : ¬ (decide ((ends cs).toArray.size ≤ (Rotation.transformed (shortened cs)).2)
      || false && decide (firstChanged < (ends cs).toArray.size)) = true := by
    rw [hsizeEnds]
    simpa using hplace
  rw [if_neg hinside, hrestored, hlong, if_neg (fun hne => hne rfl)]
  exact takesBits_pure _

end Block

/-! ## Blocks that follow one another -/

/-- The checksum of the checksums of parts, behind one that there is. -/
def sumFrom (sum : UInt32) (parts : List (List UInt8)) : UInt32 :=
  parts.foldl (fun sum part => combined sum (highSum ⟨part.toArray⟩)) sum

/-- The bits of parts and of the end of their stream. -/
def streamBits (sum : UInt32) (parts : List (List UInt8)) : List Bool :=
  parts.flatMap blockBits ++ bitsOf 48 endMark ++ bitsOf 32 (sumFrom sum parts).toNat

theorem streamBits_cons (sum : UInt32) (part : List UInt8) (parts : List (List UInt8)) :
    streamBits sum (part :: parts)
      = blockBits part ++ streamBits (combined sum (highSum ⟨part.toArray⟩)) parts := by
  simp [streamBits, sumFrom]

/-- Can octets be one block? -/
def IsPart (part : List UInt8) : Prop := part ≠ [] ∧ part.length ≤ writtenSize

/-- The end of a stream is looked at up to the end of the last octet. -/
theorem align_of_zeros {i : Input} {bs : List Bool} {zeros : Nat} (hzeros : zeros < 8) (hne : bs ≠ [])
    (h : i.bits = bs ++ List.replicate zeros false) :
    align.run (i.skip bs.length) = .ok ((), { i with place := 8 * i.octets.size }) := by
  have hall := i.length_bits
  have hsome := List.length_pos_iff.2 hne
  rw [h, List.length_append, List.length_replicate] at hall
  -- less than an octet is left, and it counts as read
  have hread : (i.skip bs.length).octetsRead = i.octets.size := by
    show (i.place + bs.length + 7) / 8 = _
    omega
  show Except.ok ((), { i.skip bs.length with place := 8 * (i.skip bs.length).octetsRead }) = _
  rw [hread]
  rfl

/-- Blocks are read one after the other up to the end of their stream. -/
theorem blocks_run {most : Nat} (hmost : 2 * writtenSize ≤ most) {zeros : Nat} (hzeros : zeros < 8) :
    ∀ {parts : List (List UInt8)} {fuel : Nat} {sum : UInt32} (out : ByteArray) {i : Input},
    (∀ part ∈ parts, IsPart part) → parts.length < fuel →
    i.bits = streamBits sum parts ++ List.replicate zeros false →
    (blocks most fuel sum out).run i
      = .ok (⟨out.data ++ parts.flatten.toArray⟩, { i with place := 8 * i.octets.size })
  | [], fuel + 1, sum, out, i, _, _, hbits => by
    have hmark : TakesBits (number .high 48) (bitsOf 48 endMark) endMark :=
      takesBits_number_of_lt (by decide)
    have hsum : TakesBits (number .high 32) (bitsOf 32 sum.toNat) sum.toNat :=
      takesBits_number_of_lt sum.toNat_lt
    have hends : streamBits sum [] = bitsOf 48 endMark ++ bitsOf 32 sum.toNat := rfl
    have hne : streamBits sum [] ≠ [] := List.ne_nil_of_length_pos (by simp [hends, length_bitsOf])
    have halign := align_of_zeros hzeros hne hbits
    rw [hends, List.length_append, ← Input.skip_skip] at halign
    rw [hends, List.append_assoc] at hbits
    rw [blocks, run_bind (hmark i _ hbits)]
    rw [if_neg (by decide), if_pos rfl, run_bind (hsum _ _ (Input.bits_skip_of_append hbits))]
    rw [if_neg (fun hne => hne rfl), run_bind halign]
    have hout : (⟨out.data ++ ([] : List (List UInt8)).flatten.toArray⟩ : ByteArray) = out :=
      ByteArray.ext Array.append_empty
    rw [hout]
    rfl
  | part :: parts, fuel + 1, sum, out, i, hparts, hfuel, hbits => by
    obtain ⟨hpart, hothers⟩ := List.forall_mem_cons.1 hparts
    have hmark : TakesBits (number .high 48) (bitsOf 48 blockMark) blockMark :=
      takesBits_number_of_lt (by decide)
    have hblock := takesBits_block hpart.1 hpart.2 hmost
    rw [streamBits_cons, blockBits_eq hpart.1, List.append_assoc, List.append_assoc] at hbits
    have hrest := Input.bits_skip_of_append hbits
    have hlast := Input.bits_skip_of_append hrest
    rw [Input.skip_skip] at hlast
    rw [blocks, run_bind (hmark i _ hbits)]
    rw [if_pos rfl, run_bind (hblock _ _ hrest)]
    dsimp only
    rw [Input.skip_skip, blocks_run hmost hzeros _ hothers (Nat.lt_of_succ_lt_succ hfuel) hlast]
    have hout : (out ++ ⟨part.toArray⟩ : ByteArray).data ++ parts.flatten.toArray
        = out.data ++ (part :: parts).flatten.toArray := by simp
    rw [hout]
    rfl

/-! ## Parts -/

theorem cut_of_ne_nil {cs : List UInt8} (h : cs ≠ []) (fuel : Nat) :
    cut (fuel + 1) cs = cs.take writtenSize :: cut fuel (cs.drop writtenSize) := by
  rw [cut]
  exact h

/-- Octets are cut into parts that can be blocks, and the parts are the octets. -/
theorem cut_spec (fuel : Nat) : ∀ cs : List UInt8, cs.length ≤ fuel →
    (∀ part ∈ cut fuel cs, IsPart part) ∧ (cut fuel cs).flatten = cs := by
  have hnil (fuel : Nat) : cut fuel [] = [] := by cases fuel <;> rfl
  induction fuel with
  | zero =>
    intro cs h
    obtain rfl := List.length_eq_zero_iff.1 (Nat.le_zero.1 h)
    exact ⟨nofun, rfl⟩
  | succ fuel ih =>
    intro cs h
    by_cases hne : cs = []
    · rw [hne, hnil]
      exact ⟨nofun, rfl⟩
    · have hsome := List.length_pos_iff.2 hne
      have hfirst : IsPart (cs.take writtenSize) := by
        refine ⟨List.ne_nil_of_length_pos ?_, List.length_take_le ..⟩
        rw [List.length_take, writtenSize]
        omega
      have hrest : (cs.drop writtenSize).length ≤ fuel := by
        rw [List.length_drop, writtenSize]
        omega
      obtain ⟨hparts, hflatten⟩ := ih _ hrest
      rw [cut_of_ne_nil hne]
      refine ⟨List.forall_mem_cons.2 ⟨hfirst, hparts⟩, ?_⟩
      rw [List.flatten_cons, hflatten, List.take_append_drop]

/-- Every block has a mark, so there are less blocks than bits. -/
theorem length_lt_length_streamBits : ∀ {parts : List (List UInt8)} (sum : UInt32),
    (∀ part ∈ parts, IsPart part) → parts.length < (streamBits sum parts).length
  | [], sum, _ => by simp [streamBits, length_bitsOf]
  | part :: parts, sum, h => by
    obtain ⟨hpart, hothers⟩ := List.forall_mem_cons.1 h
    have hrest := length_lt_length_streamBits (combined sum (highSum ⟨part.toArray⟩)) hothers
    rw [streamBits_cons, blockBits_eq hpart.1, List.length_append, List.length_append, length_bitsOf,
      List.length_cons]
    omega

/-! ## Streams -/

/-- The octets of a mark are read one by one. -/
theorem takes_mark : ∀ mark : List UInt8, Takes (forIn mark PUnit.unit fun c _ => do
    if (← octet) ≠ c then throw broken
    return ForInStep.yield PUnit.unit) mark PUnit.unit
  | [] => takes_pure PUnit.unit
  | c :: mark => by
    have hfirst : Takes (do
        if (← octet) ≠ c then throw broken
        return ForInStep.yield PUnit.unit) [c] (ForInStep.yield PUnit.unit) := by
      intro before after
      rw [run_bind (takes_octet c _ _), if_neg (fun hne => hne rfl)]
      rfl
    rw [List.forIn_cons]
    exact hfirst.bind (takes_mark mark)

/-- The bits of all parts of octets. -/
def packedBits (cs : ByteArray) : List Bool := streamBits 0 (cut cs.size cs.data.toList)

/-- What is packed: a mark, the size of blocks, and the bits of the blocks. -/
theorem toList_pack (cs : ByteArray) : (pack cs).data.toList
    = [0x42, 0x5A, 0x68] ++ 0x31 :: octetsOf (packedBits cs).length (packedBits cs) := by
  have hmark : ("BZh1".toUTF8).data.toList = [0x42, 0x5A, 0x68, 0x31] := rfl
  show (_ ++ _ : ByteArray).data.toList = _
  rw [ByteArray.data_append, Array.toList_append, hmark]
  rfl

/-- A stream is read up to its last octet. -/
theorem stream_run (cs : ByteArray) : ∃ i, stream.run (between [] (pack cs).data.toList)
    = .ok (cs, i) ∧ i.octets.size ≤ i.octetsRead := by
  have hmark : ("BZh".toUTF8).data.toList = [0x42, 0x5A, 0x68] := rfl
  obtain ⟨hparts, hflatten⟩ := cut_spec cs.size cs.data.toList (Nat.le_refl _)
  obtain ⟨zeros, hzeros, hbits⟩ := bitsOfOctets_octetsOf _ (Nat.le_refl (packedBits cs).length)
  generalize hfront : ([] ++ [0x42, 0x5A, 0x68] ++ [0x31] : List UInt8) = front
  generalize hpacked : octetsOf (packedBits cs).length (packedBits cs) = packed at hbits
  rw [← Input.bits_between front] at hbits
  have hroom : (cut cs.size cs.data.toList).length < (between front packed).bound := by
    have hlength := length_lt_length_streamBits 0 hparts
    have hbound := congrArg List.length hbits
    rw [List.length_append, packedBits] at hbound
    refine Nat.lt_trans ?_ (Input.length_bits_lt_bound (List.ne_nil_of_length_pos ?_)) <;> omega
  have hmost : 2 * writtenSize ≤ 100000 := by decide
  have hblocks := blocks_run hmost hzeros .empty hparts hroom hbits
  have hwhole : (⟨ByteArray.empty.data ++ (cut cs.size cs.data.toList).flatten.toArray⟩ : ByteArray)
      = cs := by
    rw [hflatten]
    exact ByteArray.ext Array.empty_append
  rw [hwhole] at hblocks
  refine ⟨{ between front packed with place := 8 * (between front packed).octets.size }, ?_, ?_⟩
  · unfold stream
    rw [← Array.forIn_toList, hmark, toList_pack, hpacked, run_bind (takes_mark _ _ _),
      run_bind (octet_between _ _ _), hfront]
    exact hblocks
  · show (between front packed).octets.size ≤ (8 * (between front packed).octets.size + 7) / 8
    omega

/-- What is packed is found again. -/
theorem unpack_pack (cs : ByteArray) : unpack (pack cs) = .ok cs := by
  obtain ⟨i, hstream, hend⟩ := stream_run cs
  have hstreams (fuel : Nat) : streams fuel i cs = .ok cs := by
    cases fuel with
    | zero => rfl
    | succ fuel => rw [streams, if_pos hend]
  show (stream.run (between [] (pack cs).data.toList) >>= _) = _
  rw [hstream]
  exact hstreams _

end ClusterRounds.Packing.Bzip
