/-
  ClusterRounds.Proofs.Drawing

  How drawing points fails, exactly (`Request.Fails`). The numbers that are asked for have to
  be sensible, the arrays of the centres and of the points have to find room, and the spread
  must not be a negative zero, which is no less than zero but has a sign.
-/

import ClusterRounds.Dataset.Blobs
import ClusterRounds.Proofs.Outcome

namespace ClusterRounds

/-! ## Room -/

theorem Shape.eq_of_ofLengths [Machine] {width : Nat} {lengths : List Int} {s : Shape}
    (h : ofLengths width lengths = .ok s) : s = lengths.map Int.toNat := by
  unfold ofLengths at h
  dsimp only at h
  split at h
  · cases h
  · split at h
    · cases h
    · exact (Except.ok.inj h).symm

namespace Blobs

open ClusterRounds.Random

section Room

variable [Machine]

/-- A matrix of doubles with so many rows and columns finds room. -/
def HasRoom (rows columns : Int) : Prop :=
  Shape.ofLengths doubleSize [rows, columns] = .ok [rows.toNat, columns.toNat]

/-- The octets of a matrix that finds room are a length, and not too many. -/
theorem HasRoom.size_le {n d : Nat} (h : HasRoom n d) (hn : 1 ≤ n) (hd : 1 ≤ d) :
    doubleSize * (n * d) ≤ Shape.greatestLength ∧ doubleSize * (n * d) ≤ Machine.room := by
  unfold HasRoom Shape.ofLengths at h
  dsimp only at h
  split at h
  · cases h
  · rename_i hlengths
    split at h
    · cases h
    · rename_i hroom
      have hkept : [n, d].filter (0 < ·) = [n, d] := by
        simp [Nat.pos_of_ne_zero, Nat.ne_of_gt hn, Nat.ne_of_gt hd]
      simp only [List.map_cons, List.map_nil, Int.toNat_natCast, hkept, Shape.size_cons,
        Shape.size_nil, Nat.mul_one, Bool.or_eq_true, decide_eq_true_eq, not_or, Nat.not_lt]
        at hlengths hroom
      exact ⟨hlengths.2, hroom⟩

/-- Octets are not too many for a length if those of each axis are not, and of both together. -/
theorem hasRoom_of_le {n d : Nat} (hn : doubleSize * n ≤ Shape.greatestLength)
    (hd : doubleSize * d ≤ Shape.greatestLength)
    (hsize : doubleSize * (n * d) ≤ Shape.greatestLength)
    (hroom : doubleSize * (n * d) ≤ Machine.room) : HasRoom n d := by
  have hone : doubleSize * 1 ≤ Shape.greatestLength := by decide
  have hkept : doubleSize * Shape.size ([n, d].filter (0 < ·)) ≤ Shape.greatestLength := by
    by_cases hn0 : 0 < n <;> by_cases hd0 : 0 < d <;>
      simp only [List.filter_cons, List.filter_nil, hn0, hd0, decide_true, decide_false, if_true,
        Bool.false_eq_true, if_false, Shape.size_cons, Shape.size_nil, Nat.mul_one] <;>
      assumption
  have hlength : ∀ k, doubleSize * k ≤ Shape.greatestLength → k ≤ Shape.greatestLength :=
    fun k hk => Nat.le_trans (Nat.le_mul_of_pos_left k (by decide)) hk
  unfold HasRoom Shape.ofLengths
  dsimp only
  rw [if_neg, if_neg]
  · rfl
  · simpa using hroom
  · simp only [List.map_cons, List.map_nil, Int.toNat_natCast, List.any_cons, List.any_nil,
      Bool.or_false, Bool.or_eq_true, decide_eq_true_eq, not_or, Int.not_lt, Nat.not_lt]
    exact ⟨⟨⟨Int.natCast_nonneg n, Int.natCast_nonneg d⟩, hlength n hn, hlength d hd⟩, hkept⟩

/-- Fewer rows find room as well. -/
theorem HasRoom.mono {rows fewer columns : Int} (h : HasRoom rows columns) (hfewer : 0 ≤ fewer)
    (hle : fewer ≤ rows) (hrows : 1 ≤ rows) (hcolumns : 1 ≤ columns) : HasRoom fewer columns := by
  obtain ⟨n, rfl⟩ := Int.eq_ofNat_of_zero_le (Int.le_trans Int.one_nonneg hrows)
  obtain ⟨d, rfl⟩ := Int.eq_ofNat_of_zero_le (Int.le_trans Int.one_nonneg hcolumns)
  obtain ⟨m, rfl⟩ := Int.eq_ofNat_of_zero_le hfewer
  obtain ⟨hsize, hroom⟩ := h.size_le (by omega) (by omega)
  have hfits : ∀ k, k ≤ n * d → doubleSize * k ≤ Shape.greatestLength := fun k hk =>
    Nat.le_trans (Nat.mul_le_mul_left _ hk) hsize
  have hmn : m ≤ n := Int.ofNat_le.1 hle
  have hn : n ≤ n * d := Nat.le_mul_of_pos_right n (by omega)
  have hd : d ≤ n * d := Nat.le_mul_of_pos_left d (by omega)
  have hmd : m * d ≤ n * d := Nat.mul_le_mul_right d hmn
  exact hasRoom_of_le (hfits m (Nat.le_trans hmn hn)) (hfits d hd) (hfits (m * d) hmd)
    (Nat.le_trans (Nat.mul_le_mul_left _ hmd) hroom)

theorem HasRoom.not_full {rows columns : Int} (h : HasRoom rows columns) {fault : OperandFault} :
    Shape.ofLengths doubleSize [rows, columns] ≠ .error fault := by
  intro hfull
  rw [HasRoom, hfull] at h
  cases h

theorem ends_ofLengths (rows columns : Int) :
    Outcome.Ends (Shape.ofLengths doubleSize [rows, columns])
      (fun s => HasRoom rows columns ∧ s = [rows.toNat, columns.toNat])
      (fun fault => Shape.ofLengths doubleSize [rows, columns] = .error fault) := by
  refine Outcome.ends_of (fun s hs => ?_) fun _ hfault => hfault
  have heq := Shape.eq_of_ofLengths hs
  rw [heq] at hs
  exact ⟨hs, heq⟩

end Room

/-! ## What is asked for -/

structure Request where
  points : Int
  width : Int
  centres : Int
  spread : Float
  seed : Int

namespace Request

def arguments (r : Request) : Arguments :=
  [("N", .int r.points), ("D", .int r.width), ("K", .int r.centres),
    ("cluster_std", .float r.spread), ("seed", .int r.seed)]

/-- There are points, coordinates and centres, the spread is a number that is not negative, and the
    seed fits a word. -/
structure IsSensible (r : Request) : Prop where
  points : 1 ≤ r.points
  width : 1 ≤ r.width
  centres : 1 ≤ r.centres
  spread : isSpread (.float r.spread) = true
  seed : 0 ≤ r.seed ∧ r.seed < 2 ^ 32

/-- The double has a sign. -/
def Signed (x : Float) : Prop := x.isNaN = false ∧ x.toBits >>> 63 = 1

/-- Why no points come of it. -/
inductive Fails [Machine] (r : Request) : Failure → Prop
  | senseless (senseless : ¬ r.IsSensible) : Fails r .datasetParameters
  /-- There is no room for the centres. -/
  | centres {fault : OperandFault} (sensible : r.IsSensible)
      (full : Shape.ofLengths doubleSize [r.centres, r.width] = .error fault) :
      Fails r (.operand fault)
  /-- There is no room for the points. -/
  | points {fault : OperandFault} (sensible : r.IsSensible) (room : HasRoom r.centres r.width)
      (full : Shape.ofLengths doubleSize [r.points, r.width] = .error fault) :
      Fails r (.operand fault)
  | signed (sensible : r.IsSensible) (room : HasRoom r.centres r.width)
      (room' : HasRoom r.points r.width) (signed : Signed r.spread) :
      Fails r (.operand .outOfRange)

/-- The parameters are those that are asked for. -/
structure Makes (r : Request) (p : Parameters) : Prop where
  points : p.points = .shared r.points.toNat
  width : p.width = .int r.width
  centres : p.centres = .drawn (some (.int r.centres))
  spread : p.spread = .float r.spread
  box : p.box = .float 20

end Request

theorem positive?_ends (n : Int) : Outcome.Ends (positive? (.int n)) (fun q => 1 ≤ n ∧ q = .int n)
    (fun f => f = .datasetParameters ∧ ¬ 1 ≤ n) := by
  show Outcome.Ends (if 1 ≤ n then _ else _) _ _
  split
  · rename_i hn
    exact ⟨hn, rfl⟩
  · rename_i hn
    exact ⟨rfl, hn⟩

/-- What is made of an integer that has to be positive. -/
theorem positive?_bind_ends {β : Type} {n : Int} {g : Quantity → Outcome β} {b : β}
    (hg : g (.int n) = .ok b) :
    Outcome.Ends (positive? (.int n) >>= g) (fun made => 1 ≤ n ∧ made = b)
      (fun f => f = .datasetParameters ∧ ¬ 1 ≤ n) := by
  rw [Outcome.ends_bind]
  refine (positive?_ends n).mono (fun q hq => ?_) fun _ hf => hf
  rw [hq.2, hg]
  exact ⟨hq.1, rfl⟩

theorem counts?_ends (n : Int) : Outcome.Ends (counts? (.int n))
    (fun c => 1 ≤ n ∧ c = .shared n.toNat) (fun f => f = .datasetParameters ∧ ¬ 1 ≤ n) :=
  positive?_bind_ends rfl

theorem centres?_ends (n : Int) : Outcome.Ends (centres? (.int n))
    (fun c => 1 ≤ n ∧ c = .drawn (some (.int n))) (fun f => f = .datasetParameters ∧ ¬ 1 ≤ n) :=
  positive?_bind_ends rfl

theorem seed?_ends (n : Int) : Outcome.Ends (seed? (.int n)) (fun _ => 0 ≤ n ∧ n < 2 ^ 32)
    (fun f => f = .datasetParameters ∧ ¬ (0 ≤ n ∧ n < 2 ^ 32)) := by
  show Outcome.Ends (if 0 ≤ n && n < 2 ^ 32 then _ else _) _ _
  split
  · rename_i hn
    simpa using hn
  · rename_i hn
    exact ⟨rfl, by simpa using hn⟩

/-- There are parameters exactly if what is asked for is sensible. -/
theorem ofArguments_ends (r : Request) : Outcome.Ends (ofArguments r.arguments)
    (fun p => r.IsSensible ∧ r.Makes p) (fun f => f = .datasetParameters ∧ ¬ r.IsSensible) := by
  show Outcome.Ends (counts? (.int r.points) >>= fun c => positive? (.int r.width) >>= fun q =>
    centres? (.int r.centres) >>= fun m => _) _ _
  simp only [Outcome.ends_bind]
  refine (counts?_ends r.points).mono (fun c hc => ?_) fun f hf => ⟨hf.1, fun h => hf.2 h.points⟩
  refine (positive?_ends r.width).mono (fun q hq => ?_) fun f hf => ⟨hf.1, fun h => hf.2 h.width⟩
  refine (centres?_ends r.centres).mono (fun m hm => ?_)
    fun f hf => ⟨hf.1, fun h => hf.2 h.centres⟩
  show Outcome.Ends (if (!isSpread (.float r.spread)) = true then _ else _) _ _
  split
  · rename_i hspread
    refine ⟨rfl, fun h => ?_⟩
    rw [h.spread] at hspread
    cases hspread
  · rename_i hspread
    show Outcome.Ends (seed? (.int r.seed) >>= fun s => _) _ _
    rw [Outcome.ends_bind]
    refine (seed?_ends r.seed).mono (fun s hs => ?_) fun f hf => ⟨hf.1, fun h => hf.2 h.seed⟩
    exact ⟨⟨hc.1, hq.1, hm.1, by simpa using hspread, hs⟩, ⟨hc.2, hq.2, hm.2, rfl, rfl⟩⟩

/-! ## Centres -/

theorem length_draws {σ β : Type} (draw : σ → β × σ) :
    ∀ (n : Nat) (s : σ), (draws draw n s).1.length = n
  | 0, _ => rfl
  | n + 1, s => by
    show (draws draw n (draw s).2).1.length + 1 = n + 1
    rw [length_draws draw n]

theorem draws_spec {σ β : Type} {draw : σ → β × σ} {P : β → Prop} (h : ∀ s, P (draw s).1) :
    ∀ (n : Nat) (s : σ), ∀ b ∈ (draws draw n s).1, P b
  | 0, _, _, hb => nomatch hb
  | n + 1, s, b, hb => by
    rcases List.mem_cons.1 hb with rfl | hb
    · exact h s
    · exact draws_spec h n _ b hb

/-- The row of a centre: so many doubles. -/
def IsRow (width : Nat) (row : List Value) : Prop :=
  ∃ xs : List Float, row = xs.map Value.float ∧ xs.length = width

variable {r : Request} {p : Parameters}

/-- Centres are drawn if there is room for them. -/
theorem drawn_ends [Machine] (hp : r.Makes p) (g : Twister.State) :
    Outcome.Ends (drawn p (.int r.centres) g)
    (fun made => HasRoom r.centres r.width ∧ made.1.length = r.centres.toNat ∧
      ∀ row ∈ made.1, IsRow r.width.toNat row)
    (fun fault => Shape.ofLengths doubleSize [r.centres, r.width] = .error fault) := by
  have hbox : ((20 : Float) - -20).isFinite = true := by decide +kernel
  have hdouble : (Quantity.float 20).toFloat = .ok 20 := rfl
  unfold drawn
  simp only [hp.box, hp.width, hdouble, hbox, axisLength, Outcome.ends_bind, Outcome.ends_ok,
    Bool.not_true, Bool.false_eq_true, if_false]
  refine (ends_ofLengths r.centres r.width).mono (fun s hs => ?_) fun _ hfull => hfull
  obtain ⟨hroom, rfl⟩ := hs
  refine ⟨hroom, ?_, ?_⟩
  · rw [List.length_map, length_draws]
  · intro row hrow
    obtain ⟨xs, hxs, rfl⟩ := List.mem_map.1 hrow
    have hlength : ∀ s, (draws (coordinate 20) r.width.toNat s).1.length = r.width.toNat :=
      length_draws _ _
    exact ⟨xs, rfl, draws_spec (P := fun xs => xs.length = r.width.toNat) hlength _ _ xs hxs⟩

theorem placed_eq [Machine] (hp : r.Makes p) (g : Twister.State) :
    placed p g = drawn p (.int r.centres) g := by
  unfold placed
  rw [hp.points, hp.centres]
  rfl

/-! ## Points -/

/-- What is drawn around a centre with so many coordinates: at most `n` points, with one spread. -/
structure Cluster.Fits (n width : Nat) (spread : Float) (c : Cluster) : Prop where
  centre : IsRow width c.centre
  spread : c.spread = .float spread
  count : ∃ m, c.count = .int m ∧ 0 ≤ m ∧ m ≤ n

theorem mapM_coordinate (xs : List Float) :
    (xs.map Value.float).mapM Records.coordinate = .ok xs := by
  rw [mapM_eq_ok, List.forall₂_map_left_iff]
  exact List.forall₂_same.2 fun _ _ => rfl

/-- A spread that is one number. Only a sign is at fault. -/
theorem spreadOf_ends (spread : Float) : Outcome.Ends (spreadOf (.float spread))
    (fun t => ¬ Request.Signed spread ∧ t.shape = [])
    (fun fault => fault = .outOfRange ∧ Request.Signed spread) := by
  have hany : ([spread].any fun x => !x.isNaN && x.toBits >>> 63 = 1) = true ↔
      Request.Signed spread := by
    simp [Request.Signed]
  show Outcome.Ends
    (if ([spread].any fun x => !x.isNaN && x.toBits >>> 63 = 1) = true then _ else _) _ _
  split
  · rename_i hsigned
    exact ⟨rfl, hany.1 hsigned⟩
  · rename_i hunsigned
    exact ⟨fun hsigned => hunsigned (hany.2 hsigned), rfl⟩

/-- One number fills every matrix. -/
theorem exists_stretchTo {t : Tensor Float} (ht : t.shape = []) (n d : Nat) :
    ∃ stretched, t.stretchTo [n, d] = .ok stretched := by
  have hfills : (t.shape.padTo [n, d].length).Fills [n, d] := by
    rw [ht]
    exact ⟨.inr rfl, .inr rfl, True.intro⟩
  exact ⟨_, dif_pos hfills⟩

/-- Points are drawn around all centres unless the spread has a sign. -/
theorem clusters_ends [Machine] {n width : Nat} {spread : Float} (hn : 1 ≤ n) (hwidth : 1 ≤ width)
    (hroom : HasRoom n width) : ∀ {cs : List Cluster}, (∀ c ∈ cs, c.Fits n width spread) →
    ∀ g, Outcome.Ends (clusters cs g) (fun _ => cs ≠ [] → ¬ Request.Signed spread)
      (fun fault => fault = .outOfRange ∧ Request.Signed spread)
  | [], _, _ => fun hne => absurd rfl hne
  | c :: rest, h, g => by
    obtain ⟨⟨xs, hxs, hlength⟩, hspread, m, hm, hm0, hmn⟩ := h c List.mem_cons_self
    have hhere : HasRoom m xs.length := by
      rw [hlength]
      exact hroom.mono hm0 hmn (by exact_mod_cast hn) (by exact_mod_cast hwidth)
    unfold clusters
    rw [hxs, mapM_coordinate, hspread, hm]
    simp only [Outcome.ends_bind, Outcome.ends_ok]
    refine (spreadOf_ends spread).mono (fun t ht => ?_) fun _ hsigned => hsigned
    show Outcome.Ends (Shape.ofLengths doubleSize [m, xs.length]) _ _
    rw [hhere]
    obtain ⟨stretched, hstretched⟩ := exists_stretchTo ht.2 m.toNat (xs.length : Int).toNat
    simp only [Outcome.ends_ok, hstretched, Outcome.ends_pure]
    exact (clusters_ends hn hwidth hroom (fun c hc => h c (List.mem_cons_of_mem _ hc)) _).mono
      (fun _ _ _ => ht.1) fun _ hsigned => hsigned

theorem share_le {points centres i : Nat} (h : 0 < centres) : share points centres i ≤ points := by
  have hdivide := Nat.div_add_mod points centres
  have hquotient : points / centres ≤ centres * (points / centres) := Nat.le_mul_of_pos_left _ h
  unfold share
  split <;> omega

theorem spreads_number (centres : Nat) (spread : Float) :
    spreads centres (.float spread) = .ok (List.replicate centres (.float spread)) := by
  unfold spreads
  exact if_pos List.length_replicate

/-- What is known about the clusters before they are drawn. -/
def clustersOf (points : Nat) (spread : Float) (rows : List (List Value)) : List Cluster :=
  (rows.zipIdx.zip ((List.replicate rows.length (.float spread)).zip
    ((Counts.shared points).each rows.length))).map
      fun ((centre, label), (spread, count)) => ⟨label, centre, spread, count⟩

/-- Each cluster has its share of the points. -/
theorem fits_of_mem {points width : Nat} {spread : Float} {rows : List (List Value)}
    (hrows : ∀ row ∈ rows, IsRow width row) {c : Cluster} (hc : c ∈ clustersOf points spread rows) :
    c.Fits points width spread := by
  obtain ⟨⟨⟨centre, label⟩, ⟨s, count⟩⟩, hmem, rfl⟩ := List.mem_map.1 hc
  obtain ⟨hcentre, hrest⟩ := List.of_mem_zip hmem
  obtain ⟨hs, hcount⟩ := List.of_mem_zip hrest
  have hrow : centre ∈ rows := List.fst_mem_of_mem_zipIdx hcentre
  obtain ⟨i, -, rfl⟩ := List.mem_map.1 hcount
  have hcentres : 0 < rows.length := List.length_pos_of_mem hrow
  exact ⟨hrows centre hrow, List.eq_of_mem_replicate hs, _, rfl, Int.natCast_nonneg _,
    Int.ofNat_le.2 (share_le hcentres)⟩

theorem length_clustersOf (points : Nat) (spread : Float) (rows : List (List Value)) :
    (clustersOf points spread rows).length = rows.length := by
  simp [clustersOf, Counts.each]

/-- Parameters that are asked for become points, if there is room for them and the spread has no
    sign. -/
theorem generate_ends [Machine] (hr : r.IsSensible) (hp : r.Makes p) : Outcome.Ends (generate p)
    (fun made => (∀ f, ¬ r.Fails f) ∧ ∃ n, made.points.shape = [n, r.width.toNat]) r.Fails := by
  have hpoints_pos := hr.points
  have hwidth_pos := hr.width
  have hpoints : (r.points.toNat : Int) = r.points := Int.toNat_of_nonneg (by omega)
  have hcolumns : (r.width.toNat : Int) = r.width := Int.toNat_of_nonneg (by omega)
  unfold generate
  rw [Outcome.ends_ofOperands]
  simp only [placed_eq hp, Outcome.ends_bind]
  refine (drawn_ends hp _).mono (fun made hmade => ?_) fun _ hfull => .centres hr hfull
  obtain ⟨rows, g⟩ := made
  obtain ⟨hroom, hlength, hrows⟩ := hmade
  -- there is a centre, so that the number of columns is that of the first row
  have hrows_ne : 0 < rows.length := by
    have := hr.centres
    rw [show rows.length = _ from hlength]
    omega
  have hwidth : (rows.headD []).length = r.width.toNat := by
    obtain ⟨row, rest, rfl⟩ := List.exists_cons_of_length_pos hrows_ne
    obtain ⟨xs, hxs, hxlength⟩ := hrows row List.mem_cons_self
    rw [List.headD_cons, hxs, List.length_map, hxlength]
  have htotal : (Counts.shared r.points.toNat).total = .ok (r.points.toNat : Int) := rfl
  simp only [hp.spread, hp.points, spreads_number, htotal, hwidth, hpoints, hcolumns,
    Outcome.ends_ok, Outcome.ends_discard]
  refine (ends_ofLengths r.points r.width).mono (fun s hs => ?_) fun _ hfull => .points hr hroom hfull
  have hroom' : HasRoom r.points.toNat r.width.toNat := by
    rw [hpoints, hcolumns]
    exact hs.1
  show Outcome.Ends (clusters (clustersOf r.points.toNat r.spread rows) _) _ _
  refine (clusters_ends (by omega) (by omega) hroom'
    (fun c hc => fits_of_mem hrows hc) _).mono (fun drawn hdrawn => ⟨?_, _, rfl⟩)
    fun fault hfault => ?_
  · have hunsigned := hdrawn (List.ne_nil_of_length_pos (by rwa [length_clustersOf]))
    rintro f (hsenseless | ⟨-, hfull⟩ | ⟨-, -, hfull⟩ | ⟨-, -, -, hsigned⟩)
    · exact hsenseless hr
    · exact hroom.not_full hfull
    · exact hs.1.not_full hfull
    · exact hunsigned hsigned
  · obtain ⟨rfl, hsigned⟩ := hfault
    exact .signed hr hroom hs.1 hsigned

/-- A request comes to points, of which each has all coordinates, or fails. -/
theorem made_ends [Machine] (r : Request) : Outcome.Ends (ofArguments r.arguments >>= generate)
    (fun made => (∀ f, ¬ r.Fails f) ∧ ∃ n, made.points.shape = [n, r.width.toNat]) r.Fails := by
  rw [Outcome.ends_bind]
  refine (ofArguments_ends r).mono (fun p hp => generate_ends hp.1 hp.2) fun f hf => ?_
  obtain ⟨rfl, hsenseless⟩ := hf
  exact .senseless hsenseless

theorem Request.Fails.unique [Machine] {f f' : Failure} (h : r.Fails f) (h' : r.Fails f') :
    f = f' := by
  cases h with
  | senseless hr =>
    cases h' with
    | senseless => rfl
    | centres hr' | points hr' | signed hr' => exact absurd hr' hr
  | centres hr hfull =>
    cases h' with
    | senseless hr' => exact absurd hr hr'
    | centres _ hfull' =>
      rw [hfull] at hfull'
      cases hfull'
      rfl
    | points _ hroom | signed _ hroom => exact absurd hfull hroom.not_full
  | points hr hroom hfull =>
    cases h' with
    | senseless hr' => exact absurd hr hr'
    | centres _ hfull' => exact absurd hfull' hroom.not_full
    | points _ _ hfull' =>
      rw [hfull] at hfull'
      cases hfull'
      rfl
    | signed _ _ hroom' => exact absurd hfull hroom'.not_full
  | signed hr hroom hroom' =>
    cases h' with
    | senseless hr' => exact absurd hr hr'
    | centres _ hfull => exact absurd hfull hroom.not_full
    | points _ _ hfull => exact absurd hfull hroom'.not_full
    | signed => rfl

/-- No points come of a request exactly if it fails, and it fails in one way. -/
theorem made_eq_error [Machine] {f : Failure} :
    ofArguments r.arguments >>= generate = .error f ↔ r.Fails f := by
  constructor
  · exact fun hfails => (made_ends r).of_error hfails
  · intro h
    cases hmade : ofArguments r.arguments >>= generate with
    | ok made => exact absurd h (((made_ends r).of_ok hmade).1 f)
    | error f' => rw [((made_ends r).of_error hmade).unique h]

end Blobs

end ClusterRounds
