/-
  ClusterRounds.Proofs.Packing.Recency

  Octets that are named by how recent they are, and the symbols of these names: runs of zero by
  their digits, and all others one higher. `Writes` says what a block becomes when symbols are read
  one after the other, wherever they come from.
-/

import ClusterRounds.Packing.Bzip
import Mathlib.Data.List.Perm.Basic
import Mathlib.Tactic.Ring

namespace ClusterRounds.Packing

variable {α : Type}

theorem toFront_of_getElem? {xs : List α} {place : Nat} {x : α} (h : xs[place]? = some x) :
    toFront xs place = x :: xs.eraseIdx place := by
  rw [toFront, h]

@[simp] theorem toFront_zero : ∀ xs : List α, toFront xs 0 = xs
  | [] => rfl
  | _ :: _ => rfl

theorem perm_toFront (xs : List α) (place : Nat) : (toFront xs place).Perm xs := by
  unfold toFront
  split
  case h_1 x hx =>
    obtain ⟨hlt, rfl⟩ := List.getElem?_eq_some_iff.1 hx
    exact List.getElem_cons_eraseIdx_perm hlt
  case h_2 => exact .refl _

namespace Bzip

/-! ## Names -/

/-- The octets that names stand for. -/
def named : List UInt8 → List Nat → List UInt8
  | _, [] => []
  | recent, place :: rest =>
    (toFront recent place).headD 0 :: named (toFront recent place) rest

theorem length_named : ∀ (recent : List UInt8) (names : List Nat),
    (named recent names).length = names.length
  | _, [] => rfl
  | recent, place :: rest => congrArg Nat.succ (length_named (toFront recent place) rest)

/-- Names stand for the octets that they have been made of. -/
theorem named_recencies : ∀ {known cs : List UInt8}, (∀ c ∈ cs, c ∈ known) →
    named known (recencies known cs) = cs
  | known, [], _ => rfl
  | known, c :: cs, h => by
    obtain ⟨hc, hcs⟩ := List.forall_mem_cons.1 h
    obtain ⟨place, hplace⟩ := Option.isSome_iff_exists.1 (List.isSome_idxOf?.2 hc)
    obtain ⟨hlt, hget, -⟩ := List.idxOf?_eq_some_iff.1 hplace
    have hfront := toFront_of_getElem? (List.getElem?_eq_some_iff.2 ⟨hlt, hget⟩)
    rw [recencies, hplace]
    show (toFront known place).headD 0 :: named (toFront known place)
      (recencies (toFront known place) cs) = _
    rw [named_recencies fun d hd => (perm_toFront known place).mem_iff.2 (hcs d hd), hfront]
    rfl

theorem lt_of_mem_recencies : ∀ {known cs : List UInt8}, (∀ c ∈ cs, c ∈ known) →
    ∀ name ∈ recencies known cs, name < known.length
  | known, [], _ => nofun
  | known, c :: cs, h => by
    obtain ⟨hc, hcs⟩ := List.forall_mem_cons.1 h
    obtain ⟨place, hplace⟩ := Option.isSome_iff_exists.1 (List.isSome_idxOf?.2 hc)
    obtain ⟨hlt, -, -⟩ := List.idxOf?_eq_some_iff.1 hplace
    have hknown : ∀ d ∈ cs, d ∈ toFront known place := fun d hd =>
      (perm_toFront known place).mem_iff.2 (hcs d hd)
    have hrest := lt_of_mem_recencies hknown
    rw [(perm_toFront known place).length_eq] at hrest
    rw [recencies, hplace]
    exact List.forall_mem_cons.2 ⟨hlt, hrest⟩

/-! ## Symbols -/

/-- A positive number has no more digits than it counts. -/
theorem length_runSymbols_le (fuel : Nat) : ∀ n, (runSymbols fuel n).length ≤ n := by
  induction fuel with
  | zero => exact fun n => Nat.zero_le n
  | succ fuel ih =>
    intro n
    rw [runSymbols]
    by_cases hzero : n = 0
    · rw [if_pos hzero]
      exact Nat.zero_le n
    · rw [if_neg hzero]
      split
      · have hrest := ih ((n - 1) / 2)
        rw [List.length_cons]
        omega
      · have hrest := ih ((n - 2) / 2)
        rw [List.length_cons]
        omega

theorem lt_of_mem_runSymbols (fuel : Nat) : ∀ n, ∀ s ∈ runSymbols fuel n, s < 2 := by
  induction fuel with
  | zero => exact fun _ => nofun
  | succ fuel ih =>
    intro n
    rw [runSymbols]
    split
    · exact nofun
    · split <;> exact List.forall_mem_cons.2 ⟨by decide, ih _⟩

theorem symbolsOf_succ (run name : Nat) (names : List Nat) :
    symbolsOf run ((name + 1) :: names) = runSymbols run run ++ (name + 2) :: symbolsOf 0 names := by
  rw [symbolsOf]
  exact nofun

theorem length_symbolsOf_le : ∀ (names : List Nat) (run : Nat),
    (symbolsOf run names).length ≤ run + names.length
  | [], run => by
    rw [symbolsOf]
    exact length_runSymbols_le run run
  | 0 :: names, run => by
    have hrest := length_symbolsOf_le names (run + 1)
    rw [symbolsOf, List.length_cons]
    omega
  | (name + 1) :: names, run => by
    have hdigits := length_runSymbols_le run run
    have hrest := length_symbolsOf_le names 0
    rw [symbolsOf_succ, List.length_append, List.length_cons, List.length_cons]
    omega

/-- All symbols of names are below the last one. -/
theorem lt_of_mem_symbolsOf {last : Nat} (hlast : 2 ≤ last) : ∀ (names : List Nat) (run : Nat),
    (∀ name ∈ names, name + 1 < last) → ∀ s ∈ symbolsOf run names, s < last
  | [], run, _ => by
    rw [symbolsOf]
    exact fun s hs => Nat.lt_of_lt_of_le (lt_of_mem_runSymbols run run s hs) hlast
  | 0 :: names, run, h => by
    rw [symbolsOf]
    exact lt_of_mem_symbolsOf hlast names (run + 1) fun name hname => h name (.tail _ hname)
  | (name + 1) :: names, run, h => by
    rw [symbolsOf_succ]
    refine List.forall_mem_append.2 ⟨fun s hs => ?_, List.forall_mem_cons.2 ⟨?_, ?_⟩⟩
    · exact Nat.lt_of_lt_of_le (lt_of_mem_runSymbols run run s hs) hlast
    · exact h (name + 1) List.mem_cons_self
    · exact lt_of_mem_symbolsOf hlast names 0 fun name hname => h name (.tail _ hname)

/-- What a block becomes when symbols are read up to the last one. -/
inductive Writes (most last : Nat) : List Nat → Block → Array UInt8 → Prop
  | digit {s : Nat} {ss : List Nat} {b : Block} {out : Array UInt8} (hs : s < 2)
    (hweight : b.weight ≤ 2 * most)
    (hrest : Writes most last ss
      { b with run := b.run + (s + 1) * b.weight, weight := 2 * b.weight } out) :
    Writes most last (s :: ss) b out
  | octet {s : Nat} {ss : List Nat} {b b' : Block} {out : Array UInt8} (hs : ¬ s < 2)
    (hlast : s ≠ last) (hclosed : b.closed most = .ok b') (hroom : b'.out.size < most)
    (hrest : Writes most last ss
      { b' with
        out := b'.out.push ((toFront b'.recent (s - 1)).headD 0)
        recent := toFront b'.recent (s - 1) } out) :
    Writes most last (s :: ss) b out
  | last {b b' : Block} (hlast : ¬ last < 2) (hclosed : b.closed most = .ok b') :
    Writes most last [last] b b'.out

/-- A run that has room is written out. -/
theorem closed_eq_ok {b : Block} {most : Nat} (h : b.out.size + b.run ≤ most) :
    b.closed most = .ok { b with
      out := b.out ++ (List.replicate b.run (b.recent.headD 0)).toArray
      run := 0
      weight := 1 } := by
  have hfold (c : UInt8) (out : Array UInt8) : ∀ n : Nat,
      n.fold (fun _ _ (out : Array UInt8) => out.push c) out
        = out ++ (List.replicate n c).toArray := by
    intro n
    induction n with
    | zero => simp
    | succ n ih =>
      rw [Nat.fold_succ, ih, List.replicate_succ']
      exact Array.ext' (by simp)
  rw [Block.closed, if_neg (Nat.not_lt.2 h), hfold]

/-- The digits of a number make a run longer by it. -/
theorem writes_runSymbols {most last : Nat} {ss : List Nat} {out : Array UInt8} :
    ∀ (fuel n : Nat) {b : Block}, n ≤ fuel → b.weight * n ≤ 2 * most →
    (∀ weight, Writes most last ss { b with run := b.run + b.weight * n, weight := weight } out) →
    Writes most last (runSymbols fuel n ++ ss) b out := by
  intro fuel
  induction fuel with
  | zero =>
    intro n b hn _ hrest
    obtain rfl := Nat.le_zero.1 hn
    exact hrest b.weight
  | succ fuel ih =>
    intro n b hn hroom hrest
    rw [runSymbols]
    by_cases hzero : n = 0
    · rw [if_pos hzero]
      have hsame := hrest b.weight
      rw [hzero] at hsame
      exact hsame
    · rw [if_neg hzero]
      have hweight : b.weight ≤ b.weight * n := Nat.le_mul_of_pos_right _ (Nat.pos_of_ne_zero hzero)
      -- the digit counts once for a zero and twice for a one, and all others twice as much
      have hdigit (s m : Nat) (hs : s < 2) (hm : n = s + 1 + 2 * m) (hfuel : m ≤ fuel) :
          Writes most last (s :: (runSymbols fuel m ++ ss)) b out := by
        have htotal : (s + 1) * b.weight + 2 * b.weight * m = b.weight * n := by
          rw [hm]
          ring
        refine .digit hs (Nat.le_trans hweight hroom) (ih m hfuel ?_ fun weight => ?_)
        · exact Nat.le_trans (by rw [← htotal]; exact Nat.le_add_left _ _) hroom
        · have hlast := hrest weight
          rwa [← htotal, ← Nat.add_assoc] at hlast
      split
      · exact hdigit 0 ((n - 1) / 2) (by decide) (by omega) (by omega)
      · exact hdigit 1 ((n - 2) / 2) (by decide) (by omega) (by omega)

/-- The symbols of names and the last one write the octets that the names stand for behind the run
    that has been read. -/
theorem writes_symbolsOf {most last : Nat} (hlast : ¬ last < 2) :
    ∀ (names : List Nat) (run : Nat) {b : Block}, b.run = 0 → b.weight = 1 →
    b.out.size + run + names.length ≤ most → (∀ name ∈ names, name + 1 < last) →
    Writes most last (symbolsOf run names ++ [last]) b
      (b.out ++ (List.replicate run (b.recent.headD 0) ++ named b.recent names).toArray)
  | [], run, b, hrun, hweight, hroom, _ => by
    rw [symbolsOf]
    refine writes_runSymbols run run (Nat.le_refl _) ?_ fun weight => ?_
    · rw [hweight]
      rw [List.length_nil] at hroom
      omega
    · rw [hrun, hweight, Nat.zero_add, Nat.one_mul, named, List.append_nil]
      exact .last hlast (closed_eq_ok (b := { b with run, weight }) hroom)
  | 0 :: names, run, b, hrun, hweight, hroom, hnames => by
    rw [List.length_cons] at hroom
    have hmore : b.out.size + (run + 1) + names.length ≤ most := by omega
    have hrest := writes_symbolsOf hlast names (run + 1) hrun hweight hmore
      fun name hname => hnames name (.tail _ hname)
    rw [List.replicate_succ', List.append_assoc] at hrest
    rw [symbolsOf, named, toFront_zero]
    exact hrest
  | (name + 1) :: names, run, b, hrun, hweight, hroom, hnames => by
    rw [List.length_cons] at hroom
    have hsymbols : symbolsOf run ((name + 1) :: names) ++ [last]
        = runSymbols run run ++ ((name + 2) :: (symbolsOf 0 names ++ [last])) := by
      rw [symbolsOf_succ, List.append_assoc, List.cons_append]
    rw [hsymbols]
    -- the run is written out before the octet that ends it
    refine writes_runSymbols run run (Nat.le_refl _) (by rw [hweight]; omega) fun weight => ?_
    rw [hrun, hweight, Nat.zero_add, Nat.one_mul]
    have hother : name + 2 ≠ last := Nat.ne_of_lt (hnames (name + 1) List.mem_cons_self)
    refine .octet (by omega) hother (closed_eq_ok (b := { b with run, weight }) (by
      show b.out.size + run ≤ most
      omega)) ?_ ?_
    · simp
      omega
    · have hwritten : b.out ++ (List.replicate run (b.recent.headD 0)
            ++ named b.recent ((name + 1) :: names)).toArray
          = (b.out ++ (List.replicate run (b.recent.headD 0)).toArray).push
              ((toFront b.recent (name + 1)).headD 0)
            ++ (named (toFront b.recent (name + 1)) names).toArray := by
        rw [named]
        exact Array.ext' (by simp)
      rw [hwritten]
      have hmore : ((b.out ++ (List.replicate run (b.recent.headD 0)).toArray).push
          ((toFront b.recent (name + 1)).headD 0)).size + 0 + names.length ≤ most := by
        simp
        omega
      exact writes_symbolsOf hlast names 0 rfl rfl hmore fun name hname => hnames name (.tail _ hname)

end Bzip

end ClusterRounds.Packing
