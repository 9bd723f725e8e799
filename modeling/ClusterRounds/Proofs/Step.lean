/-
  ClusterRounds.Proofs.Step

  How a step ends. `Step.Ends x s Q E` says that the step, taken from the session `s`,
  ends with an answer and a session that meet `Q`, or with a failure and a session that
  meet `E`. One lemma for each way of making a step reduces the statement to the parts
  of the step, so that a proof about a step follows the lines in which it is written.
-/

import ClusterRounds.Iteration.Session

namespace ClusterRounds
namespace Step

variable {α β γ : Type} {s s' : Session α}
variable {Q : β → Session α → Prop} {E : Failure → Session α → Prop}

/-- The step ends as `Q` says, or fails as `E` says. -/
def Ends (x : Step α β) (s : Session α) (Q : β → Session α → Prop)
    (E : Failure → Session α → Prop) : Prop :=
  match x s with
  | .ok b s' => Q b s'
  | .error e s' => E e s'

/-- How a step ends can be found out by taking it. -/
instance {x : Step α β} [∀ b s', Decidable (Q b s')] [∀ e s', Decidable (E e s')] :
    Decidable (x.Ends s Q E) :=
  match hx : x s with
  | .ok b s' => decidable_of_iff (Q b s') (by rw [Ends, hx])
  | .error e s' => decidable_of_iff (E e s') (by rw [Ends, hx])

/-! ## Using how a step ends -/

theorem Ends.of_ok {x : Step α β} {b : β} (h : x.Ends s Q E) (hx : x s = .ok b s') : Q b s' := by
  unfold Ends at h
  rwa [hx] at h

theorem Ends.of_error {x : Step α β} {e : Failure} (h : x.Ends s Q E)
    (hx : x s = .error e s') : E e s' := by
  unfold Ends at h
  rwa [hx] at h

/-- What the step answers may be told along with what is true of it. -/
theorem Ends.and_eq {x : Step α β} (h : x.Ends s Q E) :
    x.Ends s (fun b s' => Q b s' ∧ x s = .ok b s') E := by
  unfold Ends at h ⊢
  cases hx : x s with
  | ok b s' => rw [hx] at h; exact ⟨h, rfl⟩
  | error e s' => rw [hx] at h; exact h

/-- What is known of a step in two ways is known together. -/
theorem Ends.and {x : Step α β} {Q' : β → Session α → Prop} {E' : Failure → Session α → Prop}
    (h : x.Ends s Q E) (h' : x.Ends s Q' E') :
    x.Ends s (fun b s' => Q b s' ∧ Q' b s') (fun e s' => E e s' ∧ E' e s') := by
  unfold Ends at h h' ⊢
  cases hx : x s with
  | ok b s' => rw [hx] at h h'; exact ⟨h, h'⟩
  | error e s' => rw [hx] at h h'; exact ⟨h, h'⟩

/-- A step whose failures are all excluded has an answer. -/
theorem Ends.exists_ok {x : Step α β} (h : x.Ends s Q E) (hE : ∀ e s', ¬ E e s') :
    ∃ b s', x s = .ok b s' ∧ Q b s' := by
  unfold Ends at h
  cases hx : x s with
  | ok b s' => exact ⟨b, s', rfl, by rwa [hx] at h⟩
  | error e s' => rw [hx] at h; exact absurd h (hE e s')

/-- A step whose answers are all excluded fails. -/
theorem Ends.exists_error {x : Step α β} (h : x.Ends s Q E) (hQ : ∀ b s', ¬ Q b s') :
    ∃ e s', x s = .error e s' ∧ E e s' := by
  unfold Ends at h
  cases hx : x s with
  | ok b s' => rw [hx] at h; exact absurd h (hQ b s')
  | error e s' => exact ⟨e, s', rfl, by rwa [hx] at h⟩

theorem Ends.mono {x : Step α β} {Q' : β → Session α → Prop} {E' : Failure → Session α → Prop}
    (h : x.Ends s Q E) (hQ : ∀ b s', Q b s' → Q' b s') (hE : ∀ e s', E e s' → E' e s') :
    x.Ends s Q' E' := by
  unfold Ends at h ⊢
  cases hx : x s with
  | ok b s' => rw [hx] at h; exact hQ b s' h
  | error e s' => rw [hx] at h; exact hE e s' h

/-- What holds of every session holds at the end. -/
theorem ends_of_forall {x : Step α β} (hQ : ∀ b s', Q b s') (hE : ∀ e s', E e s') : x.Ends s Q E := by
  unfold Ends
  cases x s with
  | ok b s' => exact hQ b s'
  | error e s' => exact hE e s'

/-! ## The parts of a step -/

@[simp] theorem ends_pure (b : β) : (pure b : Step α β).Ends s Q E ↔ Q b s := Iff.rfl

@[simp] theorem ends_throw (e : Failure) : (throw e : Step α β).Ends s Q E ↔ E e s := Iff.rfl

@[simp] theorem ends_get {Q : Session α → Session α → Prop} :
    (get : Step α (Session α)).Ends s Q E ↔ Q s s := Iff.rfl

@[simp] theorem ends_set {Q : PUnit → Session α → Prop} (t : Session α) :
    (set t : Step α PUnit).Ends s Q E ↔ Q ⟨⟩ t := Iff.rfl

@[simp] theorem ends_modify {Q : PUnit → Session α → Prop} (f : Session α → Session α) :
    (modify f : Step α PUnit).Ends s Q E ↔ Q ⟨⟩ (f s) := Iff.rfl

@[simp] theorem ends_note {Q : Unit → Session α → Prop} (event : Event α) :
    (note event).Ends s Q E ↔ Q () { s with journal := s.journal ++ [event] } := Iff.rfl

@[simp] theorem ends_bind (x : Step α γ) (f : γ → Step α β) :
    (x >>= f).Ends s Q E ↔ x.Ends s (fun c s' => (f c).Ends s' Q E) E := by
  show Ends (EStateM.bind x f) s Q E ↔ _
  unfold Ends EStateM.bind
  cases x s <;> rfl

/-- Two steps that both have an answer, one after the other. -/
theorem bind_eq_ok {x : Step α γ} {f : γ → Step α β} {b : β} :
    (x >>= f) s = .ok b s' ↔ ∃ c t, x s = .ok c t ∧ f c t = .ok b s' := by
  show EStateM.bind x f s = _ ↔ _
  unfold EStateM.bind
  cases x s with
  | ok c t => exact ⟨fun h => ⟨c, t, rfl, h⟩, fun ⟨_, _, hc, h⟩ => by cases hc; exact h⟩
  | error e t => exact ⟨nofun, fun ⟨_, _, hc, _⟩ => nomatch hc⟩

@[simp] theorem ends_ofOutcome_ok (b : β) :
    (ofOutcome (.ok b) : Step α β).Ends s Q E ↔ Q b s := Iff.rfl

@[simp] theorem ends_ofOutcome_error (e : Failure) :
    (ofOutcome (.error e) : Step α β).Ends s Q E ↔ E e s := Iff.rfl

/-- A computation that does not touch the session, by its possible results. -/
theorem ends_ofOutcome_of {x : Outcome β} (hok : ∀ b, x = .ok b → Q b s)
    (herror : ∀ e, x = .error e → E e s) : (ofOutcome x).Ends s Q E := by
  cases x with
  | ok b => exact hok b rfl
  | error e => exact herror e rfl

@[simp] theorem ends_attempt {Q : Outcome β → Session α → Prop} (x : Step α β) :
    (attempt x).Ends s Q E ↔ x.Ends s (fun b s' => Q (.ok b) s') (fun e s' => Q (.error e) s') := by
  unfold Ends attempt
  cases x s <;> rfl

/-- The clock is read before and after, and nothing else is added. -/
theorem ends_timed {Q : β × Stretch → Session α → Prop} {x : Step α β}
    (h : ∀ clock, x.Ends { s with clock }
      (fun b s' => ∀ stretch clock, Q (b, stretch) { s' with clock })
      (fun e s' => ∀ clock, E e { s' with clock })) :
    (timed x).Ends s Q E := by
  have hx := h s.clock.read.2
  unfold Ends at hx ⊢
  unfold timed
  cases hr : x { s with clock := s.clock.read.2 } with
  | ok b s' => rw [hr] at hx; simp only [hr]; exact hx _ _
  | error e s' => rw [hr] at hx; simp only [hr]; exact hx _

@[simp] theorem ends_thenRelease (x : Step α β) :
    (thenRelease x).Ends s Q E
      ↔ x.Ends s (fun b s' => Q b s'.release) (fun e s' => E e s'.release) := by
  unfold Ends thenRelease
  cases x s <;> rfl

/-! ## Going through a list -/

private theorem ends_foldlM_suffix {f : γ → β → Step α γ} {I : List β → γ → Session α → Prop}
    {all : List β} (step : ∀ done b rest c s, all = done ++ b :: rest → I done c s →
      (f c b).Ends s (I (done ++ [b])) E) :
    ∀ (rest done : List β) (c : γ) (s : Session α), all = done ++ rest → I done c s →
      (rest.foldlM f c).Ends s (I all) E
  | [], done, c, s, hall, h => by
    rw [List.append_nil] at hall
    simpa [hall] using h
  | b :: rest, done, c, s, hall, h => by
    rw [List.foldlM_cons, ends_bind]
    refine (step done b rest c s hall h).mono (fun c' s' h' => ?_) fun _ _ h' => h'
    exact ends_foldlM_suffix step rest (done ++ [b]) c' s' (by rw [hall]; simp) h'

/-- An invariant of the elements that are done holds at the end of all. -/
theorem ends_foldlM {f : γ → β → Step α γ} {I : List β → γ → Session α → Prop} {all : List β}
    {c : γ} (start : I [] c s)
    (step : ∀ done b rest c s, all = done ++ b :: rest → I done c s →
      (f c b).Ends s (I (done ++ [b])) E) :
    (all.foldlM f c).Ends s (I all) E :=
  ends_foldlM_suffix step all [] c s rfl start

/-- The same for steps without an answer. -/
theorem ends_forM {f : β → Step α PUnit} {I : List β → Session α → Prop} {all : List β}
    (start : I [] s)
    (step : ∀ done b rest s, all = done ++ b :: rest → I done s →
      (f b).Ends s (fun _ s' => I (done ++ [b]) s') E) :
    (all.forM f).Ends s (fun _ s' => I all s') E := by
  have h : ∀ (rest : List β) (done : List β) (s : Session α), all = done ++ rest → I done s →
      (rest.forM f).Ends s (fun _ s' => I all s') E := by
    intro rest
    induction rest with
    | nil =>
      intro done s hall h
      rw [List.append_nil] at hall
      simpa [hall] using h
    | cons b rest ih =>
      intro done s hall h
      show (f b >>= fun _ => rest.forM f).Ends s _ E
      rw [ends_bind]
      refine (step done b rest s hall h).mono (fun _ s' h' => ?_) fun _ _ h' => h'
      exact ih (done ++ [b]) s' (by rw [hall]; simp) h'
  exact h all [] s rfl start

end Step
end ClusterRounds
