/-
  ClusterRounds.Proofs.Agreement

  Two sessions in which a step does the same. `Step.Agrees x y s t Q E` says that the step
  `x`, taken from `s`, and the step `y`, taken from `t`, end in one way: both with answers
  and sessions that meet `Q`, or both with one failure and sessions that meet `E`. As with
  `Step.Ends`, there is one lemma for each way of making a step. Of a controller, `Twins`
  are sessions that differ in what no step of a round looks at: the count of calls, the
  clock, the journal, and what collector and criterion remember; every step of a round
  takes twins to twins.
-/

import ClusterRounds.Proofs.Stages

namespace ClusterRounds

namespace Step

variable {α β β' γ γ' : Type} {s t : Session α}

/-- The two steps end in one way: as `Q` says, or with one failure, as `E` says. -/
def Agrees (x : Step α β) (y : Step α γ) (s t : Session α)
    (Q : β → γ → Session α → Session α → Prop) (E : Session α → Session α → Prop) : Prop :=
  match x s, y t with
  | .ok b s', .ok c t' => Q b c s' t'
  | .error e s', .error e' t' => e' = e ∧ E s' t'
  | _, _ => False

section Rules

variable {Q : β → γ → Session α → Session α → Prop} {E : Session α → Session α → Prop}

/-! ## Using how two steps agree -/

theorem Agrees.mono {x : Step α β} {y : Step α γ} {Q' : β → γ → Session α → Session α → Prop}
    {E' : Session α → Session α → Prop} (h : x.Agrees y s t Q E)
    (hQ : ∀ b c s' t', Q b c s' t' → Q' b c s' t') (hE : ∀ s' t', E s' t' → E' s' t') :
    x.Agrees y s t Q' E' := by
  unfold Agrees at h ⊢
  cases hx : x s <;> cases hy : y t <;> rw [hx, hy] at h
  case ok.ok => exact hQ _ _ _ _ h
  case error.error => exact ⟨h.1, hE _ _ h.2⟩
  case ok.error => exact h
  case error.ok => exact h

/-! ## The parts of two steps -/

@[simp] theorem agrees_pure (b : β) (c : γ) :
    (pure b : Step α β).Agrees (pure c : Step α γ) s t Q E ↔ Q b c s t := Iff.rfl

@[simp] theorem agrees_get_bind (f : Session α → Step α β) (g : Session α → Step α γ) :
    (get >>= f).Agrees (get >>= g) s t Q E ↔ (f s).Agrees (g t) s t Q E := Iff.rfl

@[simp] theorem agrees_set_bind (s' t' : Session α) (f : PUnit → Step α β)
    (g : PUnit → Step α γ) :
    (set s' >>= f).Agrees (set t' >>= g) s t Q E ↔ (f ⟨⟩).Agrees (g ⟨⟩) s' t' Q E := Iff.rfl

@[simp] theorem agrees_modify_bind (f' g' : Session α → Session α) (f : PUnit → Step α β)
    (g : PUnit → Step α γ) :
    (modify f' >>= f).Agrees (modify g' >>= g) s t Q E
      ↔ (f ⟨⟩).Agrees (g ⟨⟩) (f' s) (g' t) Q E := Iff.rfl

@[simp] theorem agrees_note_bind (e e' : Event α) (f : Unit → Step α β) (g : Unit → Step α γ) :
    (note e >>= f).Agrees (note e' >>= g) s t Q E
      ↔ (f ()).Agrees (g ()) { s with journal := s.journal ++ [e] }
          { t with journal := t.journal ++ [e'] } Q E := Iff.rfl

/-- Steps that agree, and then steps that agree about their answers. -/
theorem Agrees.bind {x : Step α β'} {y : Step α γ'} {f : β' → Step α β} {g : γ' → Step α γ}
    (h : x.Agrees y s t (fun b c s' t' => (f b).Agrees (g c) s' t' Q E) E) :
    (x >>= f).Agrees (y >>= g) s t Q E := by
  show Agrees (EStateM.bind x f) (EStateM.bind y g) s t Q E
  unfold Agrees at h
  unfold Agrees EStateM.bind
  cases hx : x s <;> cases hy : y t <;> simp only [hx, hy] at h ⊢ <;> exact h

/-- One computation that touches no session, taken from two of them. -/
theorem agrees_ofOutcome_bind {x : Outcome β'} {f : β' → Step α β} {g : β' → Step α γ}
    (hok : ∀ b, x = .ok b → (f b).Agrees (g b) s t Q E) (herror : E s t) :
    (ofOutcome x >>= f).Agrees (ofOutcome x >>= g) s t Q E := by
  cases x with
  | ok b => exact hok b rfl
  | error e => exact ⟨rfl, herror⟩

/-- The clocks may show what they like. -/
theorem agrees_timed {x : Step α β} {y : Step α γ}
    {Q : β × Stretch → γ × Stretch → Session α → Session α → Prop}
    (h : ∀ clock clock', x.Agrees y { s with clock } { t with clock := clock' }
      (fun b c s' t' => ∀ stretch stretch' clock clock',
        Q (b, stretch) (c, stretch') { s' with clock } { t' with clock := clock' })
      fun s' t' => ∀ clock clock', E { s' with clock } { t' with clock := clock' }) :
    (timed x).Agrees (timed y) s t Q E := by
  have h' := h s.clock.read.2 t.clock.read.2
  unfold Agrees at h'
  unfold Agrees timed
  cases hx : x { s with clock := s.clock.read.2 } <;>
    cases hy : y { t with clock := t.clock.read.2 } <;> simp only [hx, hy] at h' ⊢
  case ok.ok => exact h' _ _ _ _
  case error.error => exact ⟨h'.1, h'.2 _ _⟩

theorem agrees_thenRelease {x : Step α β} {y : Step α γ}
    (h : x.Agrees y s t (fun b c s' t' => Q b c s'.release t'.release)
      fun s' t' => E s'.release t'.release) :
    (thenRelease x).Agrees (thenRelease y) s t Q E := by
  unfold Agrees at h
  unfold Agrees thenRelease
  cases hx : x s <;> cases hy : y t <;> simp only [hx, hy] at h ⊢ <;> exact h

end Rules

/-! ## Steps that do the same in related sessions -/

variable {R : Session α → Session α → Prop}

/-- One answer, in related sessions. -/
structure Same (R : Session α → Session α → Prop) (b c : β) (s t : Session α) : Prop where
  answer_eq : c = b
  related : R s t

/-- From related sessions the step comes to one answer, or fails in one way, and whichever it is
    leaves related sessions. -/
def Uniform (R : Session α → Session α → Prop) (x : Step α β) : Prop :=
  ∀ s t, R s t → x.Agrees x s t (Same R) R

namespace Uniform

theorem pure (b : β) : Uniform R (Pure.pure b : Step α β) := fun _ _ h => ⟨rfl, h⟩

theorem throw (e : Failure) : Uniform R (MonadExcept.throw e : Step α β) := fun _ _ h => ⟨rfl, h⟩

theorem ofOutcome (x : Outcome β) : Uniform R (Step.ofOutcome x : Step α β) := by
  intro s t h
  cases x with
  | ok b => exact ⟨rfl, h⟩
  | error e => exact ⟨rfl, h⟩

theorem bind {x : Step α β} {f : β → Step α γ} (hx : Uniform R x) (hf : ∀ b, Uniform R (f b)) :
    Uniform R (x >>= f) := by
  refine fun s t h => .bind ((hx s t h).mono (fun b c s' t' h' => ?_) fun _ _ h' => h')
  obtain ⟨rfl, h'⟩ := h'
  exact hf c s' t' h'

theorem attempt {x : Step α β} (hx : Uniform R x) : Uniform R (Step.attempt x) := by
  intro s t h
  have h' := hx s t h
  unfold Agrees at h'
  unfold Agrees Step.attempt
  cases hs : x s <;> cases ht : x t <;> simp only [hs, ht] at h' ⊢
  case ok.ok => exact ⟨congrArg Except.ok h'.1, h'.2⟩
  case error.error => exact ⟨congrArg Except.error h'.1, h'.2⟩

theorem foldlM {f : γ → β → Step α γ} (hf : ∀ c b, Uniform R (f c b)) :
    ∀ (xs : List β) (c : γ), Uniform R (xs.foldlM f c)
  | [], c => pure c
  | x :: xs, c => by
    rw [List.foldlM_cons]
    exact bind (hf c x) fun c' => foldlM hf xs c'

end Uniform

end Step

/-! ## Sessions that differ in what no round looks at -/

variable {α : Type}

/-- The session is one of a controller with the settings, whatever its collector and its criterion
    remember. -/
def Session.SetFor (settings : Settings) (s : Session α) : Prop :=
  s.collector.k = settings.k ∧ ∃ last, s.criterion = .remembering settings last

/-- Places at which saves and removals end alike, whatever lies there. -/
structure Slot.Parallel (a b : Slot α) : Prop where
  obstacle_eq : ∀ n, b.obstacle (b.saves + n) = a.obstacle (a.saves + n)
  delete_eq : b.delete.1 = a.delete.1

namespace Slot

variable {a b : Slot α}

/-- How often a save was tried has nothing to do with the removal. -/
theorem delete_tried (slot : Slot α) (saves : Nat) (staged : Option (Snapshot α)) :
    ({ slot with saves, staged } : Slot α).delete.1 = slot.delete.1 := by
  unfold delete
  cases slot.held <;> rfl

theorem Parallel.save (h : a.Parallel b) (z : Snapshot α) :
    (b.save z).1 = (a.save z).1 ∧ (a.save z).2.Parallel (b.save z).2 := by
  have hfirst : b.obstacle b.saves = a.obstacle a.saves := h.obstacle_eq 0
  have hlater : ∀ n, b.obstacle (b.saves + 1 + n) = a.obstacle (a.saves + 1 + n) := by
    intro n
    rw [Nat.add_assoc, Nat.add_assoc]
    exact h.obstacle_eq (1 + n)
  -- what lies there stays after a failure, and is as hard to remove as before
  have htried (staged staged' : Option (Snapshot α)) :
      ({ b with saves := b.saves + 1, staged := staged' } : Slot α).delete.1
        = ({ a with saves := a.saves + 1, staged } : Slot α).delete.1 :=
    (delete_tried b _ _).trans (h.delete_eq.trans (delete_tried a _ _).symm)
  unfold Slot.save
  rw [hfirst]
  cases a.obstacle a.saves with
  | none => exact ⟨rfl, hlater, rfl⟩
  | some o =>
    cases o with
    | nameless => exact ⟨rfl, hlater, htried a.staged b.staged⟩
    | unreachable fault => exact ⟨rfl, hlater, htried a.staged b.staged⟩
    | irreplaceable fault => exact ⟨rfl, hlater, htried (some z) (some z)⟩

theorem Parallel.delete (h : a.Parallel b) : a.delete.2.Parallel b.delete.2 := by
  have hsame := h.delete_eq
  rcases a.delete_eq with ha | ⟨e, ha⟩ <;> rcases b.delete_eq with hb | ⟨e', hb⟩ <;>
    rw [ha, hb] at hsame ⊢
  · exact ⟨h.obstacle_eq, rfl⟩
  · cases hsame
  · cases hsame
  · exact h

end Slot

/-- Two sessions of a controller that differ at most in what no step of a round looks at. -/
structure Session.Twins (settings : Settings) (s t : Session α) : Prop where
  assigners_eq : t.assigners = s.assigners
  barrier_eq : t.barrier = s.barrier
  inertia_eq : t.inertia = s.inertia
  pool_eq : t.pool = s.pool
  slots : s.slot.Parallel t.slot
  left : s.SetFor settings
  right : t.SetFor settings

namespace Iteration

open Session

variable [Scalar α] {plan : Plan α}

/-! ## Before the boundary -/

section

variable (plan)

omit [Scalar α] in
theorem broadcast_uniform (centroids : Tensor α) :
    Step.Uniform (Twins plan.settings) (broadcast centroids) := by
  intro s t h
  simp only [broadcast, Step.agrees_get_bind, h.assigners_eq]
  exact Step.agrees_ofOutcome_bind (fun assigners _ => ⟨rfl, { h with assigners_eq := rfl }⟩) h

omit [Scalar α] in
theorem takeSnapshot_uniform (epoch : Int) (centroids : Tensor α) :
    Step.Uniform (Twins plan.settings) (takeSnapshot plan epoch centroids) := by
  intro s t h
  simp only [takeSnapshot, Step.agrees_get_bind, h.assigners_eq, Step.agrees_set_bind]
  have h' (assigners : List (Assigner α)) :
      Twins plan.settings { s with assigners } { t with assigners } := { h with assigners_eq := rfl }
  exact Step.agrees_ofOutcome_bind (fun stored _ => ⟨by rw [h.inertia_eq], h' _⟩) (h' _)

omit [Scalar α] in
theorem save_uniform (z : Snapshot α) : Step.Uniform (Twins plan.settings) (save z) := by
  intro s t h
  obtain ⟨hdone, hslots⟩ := h.slots.save z
  simp only [save, Step.agrees_get_bind, hdone, Step.agrees_set_bind]
  exact Step.agrees_ofOutcome_bind (fun _ _ => ⟨rfl, { h with slots := hslots }⟩)
    { h with slots := hslots }

omit [Scalar α] in
theorem prepare_uniform (here : Standing α) :
    Step.Uniform (Twins plan.settings) (prepare plan here) := by
  unfold prepare
  split
  · refine .bind (broadcast_uniform plan _) fun _ => ?_
    unfold checkpoint
    split
    · exact .pure _
    · split
      · exact .bind (takeSnapshot_uniform plan _ _) fun z => save_uniform plan z
      · exact .pure _
  · exact .pure _

end

/-! ## The boundary -/

/-- A measure without state does the same at every call. -/
theorem firePartition_uniform (hm : plan.measure.Stateless) (epoch : Int) (centroids : Tensor α)
    (place : Nat) :
    Step.Uniform (Twins plan.settings) (firePartition plan epoch centroids place) := by
  intro s t h
  simp only [firePartition, Step.agrees_get_bind, h.assigners_eq]
  cases s.assigners[place]? with
  | none => exact ⟨rfl, h⟩
  | some a =>
    obtain ⟨hanswer, hassigner⟩ := fire_stateless hm t.calls s.calls a epoch
    simp only [Step.agrees_set_bind, hanswer, hassigner]
    have h' (assigners : List (Assigner α)) (calls calls' : Nat) : Twins plan.settings
        { s with assigners, calls } { t with assigners, calls := calls' } :=
      { h with assigners_eq := rfl }
    refine Step.agrees_ofOutcome_bind (fun assignment _ => ?_) (h' _ _ _)
    exact Step.agrees_ofOutcome_bind (fun output _ => ⟨rfl, h' _ _ _⟩) (h' _ _ _)

omit [Scalar α] in
theorem deliver_uniform (settings : Settings) (epoch : Int) (made : InHand α) :
    Step.Uniform (Twins settings) (deliver epoch made) := by
  intro s t h
  simp only [deliver, Step.agrees_get_bind, h.barrier_eq]
  cases s.barrier with
  | none => exact ⟨rfl, h⟩
  | some b => exact Step.agrees_ofOutcome_bind (fun _ _ => ⟨rfl, { h with barrier_eq := rfl }⟩) h

theorem makeMoves_uniform (hm : plan.measure.Stateless) (epoch : Int) (centroids : Tensor α)
    (size : Nat) (moves : List Move) :
    Step.Uniform (Twins plan.settings) (makeMoves plan epoch centroids size moves) := by
  -- both sessions take the same moves, so they are compared move by move
  refine .bind (.foldlM (fun crew m => ?_) moves _) fun _ => .pure _
  have hact : Step.Uniform (Twins plan.settings) (act plan epoch centroids crew.made m) := by
    cases m with
    | fire i => exact .bind (firePartition_uniform hm epoch centroids i) fun _ => .pure _
    | arrive i =>
      simp only [act]
      split
      · exact .pure _
      · exact .bind (deliver_uniform _ epoch _) fun _ => .pure _
  simp only [move]
  split
  · exact .pure _
  · refine .bind hact.attempt fun result => ?_
    cases result <;> exact .pure _

omit [Scalar α] in
theorem raise_uniform (settings : Settings) : ∀ failure : Option Failure,
    Step.Uniform (Twins settings) (raise failure : Step α Unit)
  | none => .pure _
  | some e => .throw e

theorem fireAll_uniform (hm : plan.measure.Stateless) (epoch : Int) (centroids : Tensor α) :
    ∀ pool, Step.Uniform (Twins plan.settings) (fireAll plan epoch centroids pool)
  | none => by
    intro s t h
    simp only [fireAll, fireInTurn, Step.agrees_get_bind, h.assigners_eq]
    exact Step.Uniform.bind (makeMoves_uniform hm epoch centroids _ _)
      (raise_uniform plan.settings) s t h
  | some workers => by
    intro s t h
    simp only [fireAll, fireInPool, Step.agrees_get_bind, h.assigners_eq]
    refine Step.Uniform.bind (makeMoves_uniform hm epoch centroids _ _) (fun failure => ?_) s t h
    refine .bind (.ofOutcome _) fun cut => ?_
    cases cut with
    | true => exact .bind (.throw _) fun _ => raise_uniform plan.settings failure
    | false => exact raise_uniform plan.settings failure

theorem firePartitions_uniform (hm : plan.measure.Stateless) (epoch : Int) (centroids : Tensor α) :
    Step.Uniform (Twins plan.settings) (firePartitions plan epoch centroids) := by
  refine .bind (fun s t h => ?_) fun _ => fun s t h => ?_
  · simp only [openBarrier, Step.agrees_get_bind, h.barrier_eq]
    cases s.barrier with
    | none => exact ⟨rfl, h⟩
    | some b => exact Step.agrees_ofOutcome_bind (fun _ _ => ⟨rfl, { h with barrier_eq := rfl }⟩) h
  · rw [Step.agrees_get_bind, h.pool_eq]
    refine Step.Uniform.bind (fireAll_uniform hm epoch centroids s.pool) (fun _ s t h => ?_) s t h
    simp only [closeBarrier, Step.agrees_get_bind, h.barrier_eq]
    cases s.barrier with
    | none => exact ⟨rfl, h⟩
    | some b => exact Step.agrees_ofOutcome_bind (fun _ _ => ⟨rfl, { h with barrier_eq := rfl }⟩) h

/-! ## Behind the boundary -/

omit [Scalar α] in
theorem note_uniform (settings : Settings) (e : Event α) :
    Step.Uniform (Twins settings) (Step.note e) :=
  fun _ _ h => ⟨rfl, { h with }⟩

/-- The centroids do not depend on what the collector remembers. -/
theorem update_uniform (settings : Settings) (outputs : List (PartitionOutput α))
    (centroids : Tensor α) : Step.Uniform (Twins settings) (update outputs centroids) := by
  refine .bind (.ofOutcome _) fun merged => .bind (.ofOutcome _) fun means => fun s t h => ?_
  have hcollector : t.collector.collect means centroids = s.collector.collect means centroids := by
    unfold Collector.collect
    rw [h.right.1, h.left.1]
  rw [Step.agrees_get_bind, hcollector]
  refine Step.agrees_ofOutcome_bind (fun collected hcollect => ?_) h
  have hk : collected.2.k = settings.k := (Collector.k_of_collect hcollect).trans h.left.1
  have h' : Twins settings { s with collector := collected.2 } { t with collector := collected.2 } :=
    { h with left := ⟨hk, h.left.2⟩, right := ⟨hk, h.right.2⟩ }
  rw [Step.agrees_set_bind]
  split
  · exact Step.Uniform.bind (note_uniform settings _) (fun _ => .pure _) _ _ h'
  · exact ⟨rfl, h'⟩

/-- The answer of the criterion does not depend on what it remembers, and afterwards both have
    converged or neither has. -/
theorem askCriterion_agrees {settings : Settings} {s t : Session α} (h : Twins settings s t)
    (round : Int) (next previous : Tensor α) :
    (askCriterion round next previous).Agrees (askCriterion round next previous) s t
      (fun stop stop' s' t' => stop' = stop ∧ Twins settings s' t' ∧
        t'.criterion.hasConverged = s'.criterion.hasConverged)
      (Twins settings) := by
  obtain ⟨hk, last, hlast⟩ := h.left
  obtain ⟨hk', last', hlast'⟩ := h.right
  have hanswer : (t.criterion.ask round next (some previous)).1
      = (s.criterion.ask round next (some previous)).1 := by
    rw [hlast, hlast', Criterion.ask_remembering_eq last' last]
  have h' (events events' : List (Event α)) : Twins settings
      { s with criterion := (s.criterion.ask round next (some previous)).2, journal := events }
      { t with criterion := (t.criterion.ask round next (some previous)).2, journal := events' } :=
    { h with
      left := ⟨hk, hlast ▸ Criterion.exists_remembering_ask settings last round next previous⟩
      right := ⟨hk', hlast' ▸ Criterion.exists_remembering_ask settings last' round next previous⟩ }
  simp only [askCriterion, Step.agrees_get_bind, Step.agrees_set_bind, Step.agrees_note_bind]
  rw [hanswer]
  cases hstop : (s.criterion.ask round next (some previous)).1 with
  | error e => exact ⟨rfl, h' _ _⟩
  | ok stop =>
    refine ⟨rfl, h' _ _, ?_⟩
    rw [hlast] at hstop ⊢
    rw [hlast']
    exact (Criterion.ask_remembering_of_ok last' hstop).symm

omit [Scalar α] in
theorem announce_agrees (settings : Settings) (first : Int) (stop : Bool) {s t : Session α}
    (h : Twins settings s t) (report report' : RoundReport α) (hround : report'.round = report.round) :
    (announce first stop report).Agrees (announce first stop report') s t
      (fun _ _ s' t' => Twins settings s' t') (Twins settings) := by
  unfold announce
  rw [hround]
  split
  · exact { h with }
  · exact h

/-! ## Rounds -/

/-- Two standings that differ at most in the time that has been taken. -/
def Standing.SameButTime (here here' : Standing α) : Prop :=
  here' = { here with timings := here'.timings }

omit [Scalar α] in
theorem Standing.SameButTime.refl (here : Standing α) : here.SameButTime here := rfl

/-- A round does the same in twins. -/
theorem round_agrees (hm : plan.measure.Stateless) (first : Int) {here here' : Standing α}
    (hsame : here.SameButTime here') {s t : Session α} (h : Twins plan.settings s t) :
    (round plan first here).Agrees (round plan first here') s t
      (fun out out' s' t' => out.1.SameButTime out'.1 ∧ out'.2 = out.2 ∧ Twins plan.settings s' t')
      (Twins plan.settings) := by
  have hclock {s t : Session α} (h : Twins plan.settings s t) (clock clock' : Clock) :
      Twins plan.settings { s with clock } { t with clock := clock' } := { h with }
  -- the clocks may differ from here on, and with them the times that are taken
  rw [hsame]
  refine .bind ((prepare_uniform plan here s t h).mono (fun _ _ s t h => ?_) fun _ _ h => h)
  refine .bind (Step.agrees_timed fun clock clock' => ?_)
  refine (firePartitions_uniform hm here.epoch here.centroids _ _
    (hclock h.related clock clock')).mono (fun _ outputs s t h => ?_) fun _ _ h => hclock h
  obtain ⟨rfl, h⟩ := h
  intro assign assign' clock clock'
  refine .bind (Step.agrees_timed fun clock clock' => ?_)
  refine (update_uniform plan.settings outputs here.centroids _ _
    (hclock (hclock h _ _) clock clock')).mono (fun _ next s t h => ?_) fun _ _ h => hclock h
  obtain ⟨rfl, h⟩ := h
  intro spent spent' clock clock'
  -- the inertia of the round, and the criterion
  have hrecorded (x : α) : Twins plan.settings
      { s with clock, inertia := s.inertia ++ [x] }
      { t with clock := clock', inertia := t.inertia ++ [x] } :=
    { h with inertia_eq := congrArg (· ++ [x]) h.inertia_eq }
  rw [Step.agrees_modify_bind]
  refine Step.agrees_ofOutcome_bind (fun change _ => ?_) (hrecorded _)
  refine .bind ((askCriterion_agrees (hrecorded _) (here.epoch + 1) next here.centroids).mono
    (fun _ stop s t h => ?_) fun _ _ h => h)
  obtain ⟨rfl, h, hconverged⟩ := h
  rw [Step.agrees_get_bind, hconverged]
  refine .bind ((announce_agrees plan.settings first stop h _ _ (by rfl)).mono
    (fun _ _ s t h => ⟨rfl, rfl, h⟩) fun _ _ h => h)

/-- So do all rounds. -/
theorem rounds_agrees (hm : plan.measure.Stateless) (first : Int) :
    ∀ (fuel : Nat) {here here' : Standing α} {s t : Session α}, here.SameButTime here' →
      Twins plan.settings s t →
      (rounds plan first fuel here).Agrees (rounds plan first fuel here') s t
        (fun last last' s' t' => last.SameButTime last' ∧ Twins plan.settings s' t')
        (Twins plan.settings)
  | 0, _, _, _, _, _, h => ⟨rfl, h⟩
  | fuel + 1, here, here', s, t, hsame, h => by
    -- twins stop in the same round, so neither of them goes on alone
    refine .bind ((round_agrees hm first hsame h).mono (fun out out' s' t' h' => ?_) fun _ _ h' => h')
    obtain ⟨hsame', hstop, h'⟩ := h'
    dsimp only
    rw [hstop]
    split
    · exact ⟨hsame', h'⟩
    · exact rounds_agrees hm first fuel hsame' h'

end Iteration
end ClusterRounds
