/-
  ClusterRounds.Proofs.History

  Objects that are called one call after the other. A call gives an answer and leaves
  the object as it is afterwards. `after` is the object at the end of a series of calls,
  and `log` is the series with its answers, which is all that can be seen of it from
  outside. What the object knows is said as an invariant of the log and the object.
-/

import Mathlib.Data.List.Induction

namespace ClusterRounds.History

variable {σ κ ρ : Type} (call : σ → κ → ρ × σ)

/-- The object at the end of a series of calls. -/
def after : σ → List κ → σ
  | s, [] => s
  | s, c :: rest => after (call s c).2 rest

/-- The calls of a series, each with its answer. -/
def log : σ → List κ → List (κ × ρ)
  | _, [] => []
  | s, c :: rest => (c, (call s c).1) :: log (call s c).2 rest

variable {call}

theorem after_concat (s : σ) (calls : List κ) (c : κ) :
    after call s (calls ++ [c]) = (call (after call s calls) c).2 := by
  induction calls generalizing s with
  | nil => rfl
  | cons d calls ih => exact ih (call s d).2

theorem log_concat (s : σ) (calls : List κ) (c : κ) :
    log call s (calls ++ [c]) = log call s calls ++ [(c, (call (after call s calls) c).1)] := by
  induction calls generalizing s with
  | nil => rfl
  | cons d calls ih => exact congrArg ((d, (call s d).1) :: ·) (ih (call s d).2)

/-- An entry of a log is the answer to a call after the calls before it. -/
theorem exists_of_log_eq {s : σ} {calls : List κ} {past later : List (κ × ρ)} {c : κ} {r : ρ}
    (h : log call s calls = past ++ (c, r) :: later) : ∃ before rest,
      calls = before ++ c :: rest ∧ log call s before = past ∧
        (call (after call s before) c).1 = r := by
  induction past generalizing s calls with
  | nil =>
    cases calls with
    | nil => cases h
    | cons d calls =>
      cases h
      exact ⟨[], calls, rfl, rfl, rfl⟩
  | cons entry past ih =>
    cases calls with
    | nil => cases h
    | cons d calls =>
      obtain ⟨hentry, htail⟩ := List.cons.inj h
      obtain ⟨before, rest, rfl, hpast, hr⟩ := ih htail
      refine ⟨d :: before, rest, rfl, ?_, hr⟩
      rw [← hentry, ← hpast]
      rfl

/-- Two objects that are related as every call keeps them show the same, whatever they are made of. -/
theorem log_eq_log {τ : Type} {call' : τ → κ → ρ × τ} {R : σ → τ → Prop} :
    ∀ {calls : List κ} {s : σ} {t : τ},
      (∀ s t, ∀ c ∈ calls, R s t → (call s c).1 = (call' t c).1 ∧ R (call s c).2 (call' t c).2) →
      R s t → log call s calls = log call' t calls
  | [], _, _, _, _ => rfl
  | c :: rest, s, t, keeps, h => by
    obtain ⟨hsame, hnext⟩ := keeps s t c List.mem_cons_self h
    have hrest := log_eq_log (fun s t d hd => keeps s t d (List.mem_cons_of_mem c hd)) hnext
    rw [log, log, hsame, hrest]

/-- What every call keeps holds at the end of a series. -/
theorem invariant {I : List (κ × ρ) → σ → Prop} {s : σ} (start : I [] s) {calls : List κ}
    (keeps : ∀ past s, ∀ c ∈ calls, I past s → I (past ++ [(c, (call s c).1)]) (call s c).2) :
    I (log call s calls) (after call s calls) := by
  induction calls using List.reverseRecOn with
  | nil => exact start
  | append_singleton calls c ih =>
    rw [log_concat, after_concat]
    refine keeps _ _ c (by simp) (ih fun past s d hd => keeps past s d ?_)
    exact List.mem_append_left _ hd

end ClusterRounds.History
