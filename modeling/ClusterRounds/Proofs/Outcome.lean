/-
  ClusterRounds.Proofs.Outcome

  When a computation that may fail has an answer, and how it fails: a chain of such
  computations, one of them for every element of a list, and one on operands.
-/

import ClusterRounds.Failure.Basic
import Mathlib.Data.List.Forall2

namespace ClusterRounds

variable {ε β γ : Type}

theorem bind_eq_ok {x : Except ε β} {f : β → Except ε γ} {c : γ} :
    x >>= f = .ok c ↔ ∃ b, x = .ok b ∧ f b = .ok c := by
  cases x with
  | error e => simp [bind, Except.bind]
  | ok b => simp [bind, Except.bind]

theorem bind_eq_error {x : Except ε β} {f : β → Except ε γ} {e : ε} :
    x >>= f = .error e ↔ x = .error e ∨ ∃ b, x = .ok b ∧ f b = .error e := by
  cases x with
  | error e' => simp [bind, Except.bind]
  | ok b => simp [bind, Except.bind]

theorem pure_eq_ok {b c : β} : (pure b : Except ε β) = .ok c ↔ b = c := by
  simp [pure, Except.pure]

theorem map_eq_ok {x : Except ε β} {f : β → γ} {c : γ} :
    x.map f = .ok c ↔ ∃ b, x = .ok b ∧ f b = c := by
  cases x with
  | error e => simp [Except.map]
  | ok b => simp [Except.map]

theorem ofOperands_eq_ok {x : Except OperandFault β} {b : β} :
    Outcome.ofOperands x = .ok b ↔ x = .ok b := by
  cases x with
  | error e =>
    constructor
    · intro h
      cases h
    · intro h
      cases h
  | ok c =>
    show (Except.ok c : Outcome β) = .ok b ↔ _
    rw [Except.ok.injEq, Except.ok.injEq]

theorem mapError_eq_error {ε' : Type} {x : Except ε β} {g : ε → ε'} {e : ε'} :
    x.mapError g = .error e ↔ ∃ e', x = .error e' ∧ g e' = e := by
  cases x with
  | error e' => simp [Except.mapError]
  | ok b => simp [Except.mapError]

theorem mapError_eq_ok {ε' : Type} {x : Except ε β} {g : ε → ε'} {b : β} :
    x.mapError g = .ok b ↔ x = .ok b := by
  cases x with
  | error e => simp [Except.mapError]
  | ok c => simp [Except.mapError]

theorem ofOperands_eq_error {x : Except OperandFault β} {f : Failure} :
    Outcome.ofOperands x = .error f ↔ ∃ fault, x = .error fault ∧ f = .operand fault := by
  rw [Outcome.ofOperands, mapError_eq_error]
  exact exists_congr fun fault => and_congr_right fun _ => eq_comm

@[simp] theorem ofOperands_ok (b : β) : Outcome.ofOperands (.ok b) = .ok b := rfl

@[simp] theorem ofOperands_error (e : OperandFault) :
    (Outcome.ofOperands (.error e) : Outcome β) = .error (.operand e) := rfl

/-! ## How a computation ends -/

/-- The failure says what is wrong with the settings or the inputs. -/
def Failure.IsConfiguration (f : Failure) : Prop := ∃ fault, f = .configuration fault

namespace Outcome

variable {x : Except ε β} {Q Q' : β → Prop} {E E' : ε → Prop}

/-- The computation has an answer as `Q` says, or fails as `E` says. -/
def Ends (x : Except ε β) (Q : β → Prop) (E : ε → Prop) : Prop :=
  match x with
  | .ok b => Q b
  | .error e => E e

theorem Ends.of_ok {b : β} (h : Ends x Q E) (hx : x = .ok b) : Q b := by
  rwa [hx] at h

theorem Ends.of_error {e : ε} (h : Ends x Q E) (hx : x = .error e) : E e := by
  rwa [hx] at h

theorem Ends.mono (h : Ends x Q E) (hQ : ∀ b, Q b → Q' b) (hE : ∀ e, E e → E' e) :
    Ends x Q' E' := by
  cases x with
  | ok b => exact hQ b h
  | error e => exact hE e h

/-- By its possible results. -/
theorem ends_of (hok : ∀ b, x = .ok b → Q b) (herror : ∀ e, x = .error e → E e) : Ends x Q E := by
  cases x with
  | ok b => exact hok b rfl
  | error e => exact herror e rfl

@[simp] theorem ends_ok (b : β) : Ends (.ok b) Q E ↔ Q b := Iff.rfl

@[simp] theorem ends_error (e : ε) : Ends (.error e : Except ε β) Q E ↔ E e := Iff.rfl

@[simp] theorem ends_pure (b : β) : Ends (pure b : Except ε β) Q E ↔ Q b := Iff.rfl

@[simp] theorem ends_throw (e : ε) : Ends (throw e : Except ε β) Q E ↔ E e := Iff.rfl

@[simp] theorem ends_bind (y : Except ε γ) (f : γ → Except ε β) :
    Ends (y >>= f) Q E ↔ Ends y (fun c => Ends (f c) Q E) E := by
  cases y <;> rfl

@[simp] theorem ends_map (y : Except ε γ) (f : γ → β) :
    Ends (f <$> y) Q E ↔ Ends y (fun c => Q (f c)) E := by
  cases y <;> rfl

@[simp] theorem ends_discard (y : Except ε β) {Q : PUnit → Prop} :
    Ends (discard y) Q E ↔ Ends y (fun _ => Q ⟨⟩) E := by
  cases y <;> rfl

@[simp] theorem ends_ofOperands (y : Except OperandFault β) {E : Failure → Prop} :
    Ends (ofOperands y) Q E ↔ Ends y Q fun fault => E (.operand fault) := by
  cases y <;> rfl

end Outcome

/-! ## Lists of computations -/

/-- A list of answers is one answer for each element. -/
theorem mapM_eq_ok {f : β → Except ε γ} :
    ∀ {xs : List β} {ys : List γ}, xs.mapM f = .ok ys ↔ List.Forall₂ (fun x y => f x = .ok y) xs ys
  | [], ys => by
    rw [List.mapM_nil, pure_eq_ok]
    constructor
    · rintro rfl
      exact .nil
    · intro h
      cases h
      rfl
  | x :: xs, ys => by
    rw [List.mapM_cons, bind_eq_ok]
    constructor
    · rintro ⟨y, hy, h⟩
      obtain ⟨rest, hrest, h⟩ := bind_eq_ok.1 h
      cases pure_eq_ok.1 h
      exact .cons hy (mapM_eq_ok.1 hrest)
    · intro h
      cases h with
      | cons hy hrest => exact ⟨_, hy, bind_eq_ok.2 ⟨_, mapM_eq_ok.2 hrest, rfl⟩⟩

theorem mapM_eq_ok_getElem? {f : β → Except ε γ} {xs : List β} {ys : List γ}
    (h : xs.mapM f = .ok ys) {i : Nat} {x : β} (hx : xs[i]? = some x) :
    ∃ y, ys[i]? = some y ∧ f x = .ok y := by
  obtain ⟨hlen, hget⟩ := (List.forall₂_iff_get).1 (mapM_eq_ok.1 h)
  obtain ⟨hi, rfl⟩ := List.getElem?_eq_some_iff.1 hx
  exact ⟨ys[i], List.getElem?_eq_getElem (hlen ▸ hi), hget i hi (hlen ▸ hi)⟩

/-- What fails for a list fails for one of its elements. -/
theorem mapM_eq_error {f : β → Except ε γ} {e : ε} :
    ∀ {xs : List β}, xs.mapM f = .error e → ∃ x ∈ xs, f x = .error e
  | [], h => nomatch h
  | x :: xs, h => by
    rw [List.mapM_cons, bind_eq_error] at h
    rcases h with hx | ⟨y, -, h⟩
    · exact ⟨x, List.mem_cons_self, hx⟩
    · rcases bind_eq_error.1 h with hxs | ⟨_, -, h⟩
      · obtain ⟨x', hx', hfails⟩ := mapM_eq_error hxs
        exact ⟨x', List.mem_cons_of_mem _ hx', hfails⟩
      · cases h

/-- Where every element fails in one way, so does the list, unless it is empty. -/
theorem mapM_eq_error_of_forall {f : β → Except ε γ} {e : ε} {xs : List β} (hne : xs ≠ [])
    (h : ∀ x ∈ xs, f x = .error e) : xs.mapM f = .error e := by
  match xs with
  | x :: xs =>
    rw [List.mapM_cons, h x List.mem_cons_self]
    rfl

/-- Where every element has an answer, so has the list. -/
theorem exists_mapM_eq_ok {f : β → Except ε γ} {P : γ → Prop} :
    ∀ {xs : List β}, (∀ x ∈ xs, ∃ y, f x = .ok y ∧ P y) →
      ∃ ys, xs.mapM f = .ok ys ∧ ys.length = xs.length ∧ ∀ y ∈ ys, P y
  | [], _ => ⟨[], rfl, rfl, fun _ h => nomatch h⟩
  | x :: xs, h => by
    obtain ⟨y, hy, hP⟩ := h x List.mem_cons_self
    obtain ⟨ys, hys, hlength, hall⟩ := exists_mapM_eq_ok fun z hz => h z (List.mem_cons_of_mem _ hz)
    refine ⟨y :: ys, ?_, by rw [List.length_cons, List.length_cons, hlength], ?_⟩
    · rw [List.mapM_cons, hy, hys]
      rfl
    · rw [List.forall_mem_cons]
      exact ⟨hP, hall⟩

/-- A check of every element. -/
theorem forM_eq_ok {f : β → Except ε Unit} :
    ∀ {xs : List β}, xs.forM f = .ok ⟨⟩ ↔ ∀ x ∈ xs, f x = .ok ⟨⟩
  | [] => by simp [pure, Except.pure]
  | x :: xs => by
    show (f x >>= fun _ => xs.forM f) = .ok ⟨⟩ ↔ _
    rw [bind_eq_ok]
    constructor
    · rintro ⟨_, hx, hxs⟩ y hy
      rcases List.mem_cons.1 hy with rfl | hy
      · exact hx
      · exact forM_eq_ok.1 hxs y hy
    · intro h
      exact ⟨⟨⟩, h x (by simp), forM_eq_ok.2 fun y hy => h y (by simp [hy])⟩

theorem mapM_eq_ok_map {f : β → Except ε γ} {g : β → γ} {xs : List β}
    (h : ∀ x ∈ xs, f x = .ok (g x)) : xs.mapM f = .ok (xs.map g) := by
  rw [mapM_eq_ok]
  induction xs with
  | nil => exact .nil
  | cons x xs ih => exact .cons (h x (by simp)) (ih fun y hy => h y (by simp [hy]))

end ClusterRounds
