/-
  ClusterRounds.Proofs.Telling

  The document that is written about a fit. It is the record of the number of clusters and of
  rounds, of the rows of the centroids and of the inertia of every round (`Report.record`), and it
  is read back as this record. It is a standard document exactly if all centroids and all inertias
  are finite: the doubles that are not are written by names that the standard grammar does not
  know.
-/

import ClusterRounds.Proofs.Counting
import ClusterRounds.Proofs.Documents
import ClusterRounds.Proofs.Prediction
import ClusterRounds.Proofs.Saving
import ClusterRounds.Report

namespace ClusterRounds

open Files

/-! ## What a fit returns -/

/-- A fit that answers with a model has made its centroids, one for each cluster, and knows the
    inertia of every round. -/
theorem Estimator.result_of_fit {α : Type} [Scalar α] {e : Estimator α} {points : Tensor α}
    {given : Option (Tensor α)} {model : Model α} (h : (e.fit points given).answer = .ok model) :
    ∃ r width, model.result = some r ∧ model.centroids.shape = [e.plan.settings.k, width] ∧
      (r.inertia.length : Int) = r.rounds := by
  obtain ⟨parts, initial, r, s, -, hrun, rfl⟩ := exists_of_fit h
  obtain ⟨haccepted, set, last, hlast, hcentroids, -⟩ := exists_lastSet hrun
  obtain ⟨here, s₁, s₂, width, -, hhere, -, hround⟩ := hlast.onCourse haccepted
  obtain ⟨hafter, -⟩ := (Iteration.round_onCourse rfl _ hhere).of_ok hround
  have hcriterion : ∃ last, e.session.criterion = .remembering e.plan.settings last :=
    ⟨none, (Criterion.remembering_none e.plan.settings).symm⟩
  obtain ⟨C, count, -, hcounted, -⟩ := (Iteration.run_counted parts initial hcriterion).of_ok hrun
  obtain ⟨added, hinertia, hcount⟩ := hcounted.inertia
  -- the centroids are those of the last round, and a round adds one inertia
  refine ⟨r, width, rfl, ?_, ?_⟩
  · show r.centroids.shape = _
    rw [hcentroids]
    exact hafter.shaped.centroids
  · rw [hcounted.rounds_eq, hinertia, List.nil_append, hcount, Int.zero_add]

/-! ## The document -/

namespace Report

variable {centroids : Tensor Float} {r : RunResult Float} {k width : Nat}

/-- What is told about centroids with these rows. -/
def record (k : Nat) (rows : List (List Float)) (r : RunResult Float) : Value :=
  .record [("k", .int k), ("n_rounds", .int r.rounds), ("converged", .bool r.converged),
    ("centroids", .list (rows.map fun row => .list (row.map .float))),
    ("inertia_history", .list (r.inertia.map .float))]

theorem nested_row : ∀ row : List Float, nested [row.length] row = .list (row.map .float)
  | row => by
    have hpieces : ∀ xs : List Float, (pieces 1 xs.length xs).map (nested []) = xs.map .float := by
      intro xs
      induction xs with
      | nil => rfl
      | cons x xs ih =>
        rw [List.length_cons, pieces, List.map_cons, List.map_cons]
        exact congrArg _ ih
    rw [nested]
    exact congrArg _ (hpieces row)

/-- The document is the record of the rows. -/
theorem document_eq (hshape : centroids.shape = [k, width]) :
    document k centroids r = record k centroids.rowLists r := by
  have hrows : nested centroids.shape centroids.entries
      = .list (centroids.rowLists.map fun row => .list (row.map .float)) := by
    rw [Tensor.rowLists_of_shape hshape, hshape, nested]
    congr 1
    refine List.map_congr_left fun row hrow => ?_
    have hlength := Tensor.length_of_mem_rowLists hshape (Tensor.rowLists_of_shape hshape ▸ hrow)
    have hwidth : row.length = width := by simpa [Shape.size] using hlength
    rw [← nested_row, hwidth]
  rw [document, hrows, record]

/-- No name of a field has half of a pair in it, and none stands twice. -/
theorem fits_record {limited : Bool} (hk : limited = true → k < 10 ^ Number.maxIntegerDigits)
    (hrounds : limited = true → r.rounds.natAbs < 10 ^ Number.maxIntegerDigits)
    (rows : List (List Float)) : Json.Fits limited 0 (record k rows r) := by
  have hdeep (depth : Nat) (h : depth < Json.deepest) : limited = true → depth < Json.deepest :=
    fun _ => h
  have hfloats (depth : Nat) (xs : List Float) :
      ∀ v ∈ xs.map Value.float, Json.Fits limited depth v := by
    intro v hv
    obtain ⟨x, -, rfl⟩ := List.mem_map.1 hv
    exact .float x
  have hrows : ∀ v ∈ rows.map fun row => Value.list (row.map .float), Json.Fits limited 2 v := by
    intro v hv
    obtain ⟨row, -, rfl⟩ := List.mem_map.1 hv
    exact .list (hdeep 2 (by decide)) (hfloats 3 row)
  have hnames : ∀ name ∈ ["k", "n_rounds", "converged", "centroids", "inertia_history"],
      Text.IsAscii name := by decide +kernel
  refine .record (hdeep 0 (by decide))
    (fun f hf c hc => Text.unpaired?_of_ascii (hnames f.1 ?_ c hc)) (by simp) ?_
  · simp only [List.mem_cons, List.not_mem_nil, or_false] at hf
    rcases hf with rfl | rfl | rfl | rfl | rfl <;> simp
  · simp only [List.forall_mem_cons]
    exact ⟨.int hk, .int hrounds, .bool _, .list (hdeep 1 (by decide)) hrows,
      .list (hdeep 1 (by decide)) (hfloats 2 r.inertia), nofun⟩

theorem isFinite_record {rows : List (List Float)} : Json.IsFinite (record k rows r) ↔
    (∀ x ∈ rows.flatten, x.isFinite = true) ∧ ∀ x ∈ r.inertia, x.isFinite = true := by
  simp only [record, Json.isFinite_record, List.forall_mem_cons, Json.isFinite_list,
    List.forall_mem_map, Json.isFinite_float, List.mem_flatten]
  constructor
  · rintro ⟨-, -, -, hrows, hinertia, -⟩
    exact ⟨fun x ⟨row, hrow, hx⟩ => hrows row hrow x hx, hinertia⟩
  · rintro ⟨hrows, hinertia⟩
    exact ⟨.int _, .int _, .bool _, fun row hrow x hx => hrows x ⟨row, hrow, hx⟩, hinertia, nofun⟩

/-- A text that is written is in the file, if there is to be one. -/
theorem read_of_write {tree after : Tree} {output text : String} {lines : List Line}
    (houtput : output ≠ "") (hwritten : write tree output text = .ok (after, lines)) :
    after.read output = .ok (.text text) := by
  have hsome : ¬ output.isEmpty = true := by simpa using houtput
  unfold write at hwritten
  rw [if_neg hsome] at hwritten
  obtain ⟨made, hmade, hwritten⟩ := bind_eq_ok.1 hwritten
  cases hwritten
  cases hput : tree.write output (.text text) with
  | error fault =>
    rw [hput] at hmade
    cases hmade
  | ok made =>
    rw [hput] at hmade
    cases hmade
    obtain ⟨at_, hwritable, rfl⟩ := Tree.write_eq_ok.1 hput
    exact hwritable.read_put

/-- So is the document of what has been told without a failure. -/
theorem read_of_tell [Machine] {tree after : Tree} {m : Model Float} {output : String}
    {lines : List Line} (hresult : m.result = some r) (hshape : m.centroids.shape = [k, width])
    (houtput : output ≠ "")
    (htold : tell tree m output = (.ok (), after, lines)) :
    after.read output = .ok (.text (Json.indented 0 (record k m.centroids.rowLists r))) := by
  have hwidth : m.centroids.width = .ok width := by simp [Tensor.width, Tensor.axis, hshape]
  have hrows : m.centroids.rowTotal = k := by simp [Tensor.rowTotal, hshape]
  unfold tell at htold
  simp only [hresult, hwidth, hrows, documentText, document_eq hshape] at htold
  split at htold
  · cases htold
  · split at htold
    · cases htold
    · rename_i hwritten
      cases htold
      exact read_of_write houtput hwritten

/-- All centroids and all inertias are finite. -/
def AllFinite (m : Model Float) (r : RunResult Float) : Prop :=
  (∀ x ∈ m.centroids.entries, x.isFinite = true) ∧ ∀ x ∈ r.inertia, x.isFinite = true

/-- The text of the record is a standard document exactly if all of them are, and then it denotes
    the record. -/
theorem isStandard_record_iff {m : Model Float} (hshape : m.centroids.shape = [k, width])
    (r : RunResult Float) :
    ((∃ v, Json.IsStandard (Json.indented 0 (record k m.centroids.rowLists r)) v) ↔
      AllFinite m r) ∧
    (AllFinite m r → Json.IsStandard (Json.indented 0 (record k m.centroids.rowLists r))
      (record k m.centroids.rowLists r)) := by
  have hunlimited {p : Prop} : false = true → p := nofun
  have hfits : Json.Fits false 0 (record k m.centroids.rowLists r) :=
    fits_record hunlimited hunlimited _
  have hfinite : Json.IsFinite (record k m.centroids.rowLists r) ↔ AllFinite m r := by
    rw [isFinite_record, Tensor.flatten_rowLists hshape, AllFinite]
  obtain ⟨hiff, hdenotes⟩ := Json.isStandard_indented_iff hfits
  exact ⟨hiff.trans hfinite, fun h => hdenotes (hfinite.2 h)⟩

end Report

/-- The document of a fit is read back as it was: the number of clusters and of rounds, whether they
    have converged, the rows of the centroids, one for each cluster, and the inertia of every round;
    and there is nothing else that it denotes as a standard document. But it is a standard document
    only if all centroids and all inertias are finite. -/
theorem fit_document_reads_back [Machine] {e : Estimator Float} {points : Tensor Float}
    {given : Option (Tensor Float)} {model : Model Float}
    (hfit : (e.fit points given).answer = .ok model) {tree after : Tree} {output : String}
    {lines : List Line} (houtput : output ≠ "")
    (htold : Report.tell tree model output = (.ok (), after, lines)) :
    ∃ r width text, model.result = some r ∧
      model.centroids.shape = [e.plan.settings.k, width] ∧ (r.inertia.length : Int) = r.rounds ∧
      after.read output = .ok (.text text) ∧
      ((∃ v, Json.IsStandard text v) ↔ Report.AllFinite model r) ∧
      (Report.AllFinite model r → Json.IsStandard text
        (Report.record e.plan.settings.k model.centroids.rowLists r)) ∧
      (e.plan.settings.k < 10 ^ Number.maxIntegerDigits →
        r.rounds.natAbs < 10 ^ Number.maxIntegerDigits →
        Json.read text = .ok (Report.record e.plan.settings.k model.centroids.rowLists r) ∧
          ∀ v, Json.IsStandard text v →
            v = Report.record e.plan.settings.k model.centroids.rowLists r) := by
  obtain ⟨r, width, hresult, hshape, hinertia⟩ := Estimator.result_of_fit hfit
  have hread := Report.read_of_tell hresult hshape houtput htold
  have hstandard := Report.isStandard_record_iff hshape r
  refine ⟨r, width, _, hresult, hshape, hinertia, hread, hstandard.1, hstandard.2,
    fun hk hrounds => ?_⟩
  have hfits : Json.Fits true 0 (Report.record _ model.centroids.rowLists r) :=
    Report.fits_record (fun _ => hk) (fun _ => hrounds) _
  exact ⟨Json.read_indented hfits, fun v hv => Json.eq_of_isStandard hfits hv⟩

namespace Report.Sample

/-- An estimator for doubles, without a checkpoint. -/
def estimator : Estimator Float where
  plan := ClusterRounds.Sample.doublePlan
  calls := 0
  slot := .empty ""
  clock := .stepping 0

/-- Does a model of three points, of which one is given, hold this when it has been told about? -/
def told? (x : Float) (p : Model Float → RunResult Float → Bool) : Bool :=
  match (estimator.fit (ClusterRounds.Sample.doubles [0, x, 9])
      (some (ClusterRounds.Sample.doubles [0, 4]))).answer with
  | .ok m =>
    match m.result, tell Save.Sample.place m "c.json" with
    | some r, (.ok (), _, _) => p m r
    | _, _ => false
  | .error _ => false

theorem exists_told {x : Float} {p : Model Float → RunResult Float → Bool} (h : told? x p = true) :
    ∃ m r after lines, (estimator.fit (ClusterRounds.Sample.doubles [0, x, 9])
        (some (ClusterRounds.Sample.doubles [0, 4]))).answer = .ok m ∧ m.result = some r ∧
      tell Save.Sample.place m "c.json" = (.ok (), after, lines) ∧ p m r = true := by
  unfold told? at h
  split at h
  · rename_i m hm
    split at h
    · rename_i r after lines hr htold
      exact ⟨m, r, after, lines, hm, hr, htold, h⟩
    · cases h
  · cases h

theorem told_one : told? 1 (fun m r => m.centroids.entries.all Float.isFinite
    && r.inertia.all Float.isFinite && r.rounds = 2) = true := by decide +kernel

theorem told_undefined : told? (Float.ofBits 0x7FF8000000000000)
    (fun _ r => r.inertia.any fun x => !x.isFinite) = true := by decide +kernel

end Report.Sample

/-- The document of a fit in two rounds is a standard one. -/
theorem fit_document_reads_back_sample : ∃ (model : Model Float) (r : RunResult Float)
    (after : Tree) (text : String),
    (Report.Sample.estimator.fit (Sample.doubles [0, 1, 9]) (some (Sample.doubles [0, 4]))).answer
      = .ok model ∧
    model.result = some r ∧ r.rounds = 2 ∧ after.read "c.json" = .ok (.text text) ∧
    Json.IsStandard text (Report.record 2 model.centroids.rowLists r) ∧
    Json.read text = .ok (Report.record 2 model.centroids.rowLists r) := by
  obtain ⟨model, r, after, lines, hfit, hresult, htold, hholds⟩ :=
    Report.Sample.exists_told Report.Sample.told_one
  simp only [Bool.and_eq_true, decide_eq_true_eq, List.all_eq_true] at hholds
  obtain ⟨hfinite, hrounds⟩ := hholds
  obtain ⟨r', width, text, hresult', -, -, hread, -, hstandard, hback⟩ :=
    fit_document_reads_back hfit (by decide) htold
  obtain rfl : r' = r := Option.some.inj (hresult'.symm.trans hresult)
  have hk : 2 < 10 ^ Number.maxIntegerDigits :=
    Nat.lt_of_lt_of_le (by decide : 2 < 10 ^ 1) (Nat.pow_le_pow_right (by decide) (by decide))
  have hback := hback hk (by rw [hrounds]; exact hk)
  exact ⟨model, r', after, text, hfit, hresult, hrounds, hread, hstandard hfinite, hback.1⟩

/-- With an undefined coordinate among the points there is a model, and what is told about it is no
    standard document. -/
theorem undefined_point_spoils_document : ∃ model after lines text,
    (Report.Sample.estimator.fit (Sample.doubles [0, Float.ofBits 0x7FF8000000000000, 9])
      (some (Sample.doubles [0, 4]))).answer = .ok model ∧
    Report.tell Save.Sample.place model "c.json" = (.ok (), after, lines) ∧
    after.read "c.json" = .ok (.text text) ∧ ∀ v, ¬ Json.IsStandard text v := by
  obtain ⟨model, r, after, lines, hfit, hresult, htold, hholds⟩ :=
    Report.Sample.exists_told Report.Sample.told_undefined
  obtain ⟨r', width, hresult', hshape, -⟩ := Estimator.result_of_fit hfit
  obtain rfl : r' = r := Option.some.inj (hresult'.symm.trans hresult)
  have hread := Report.read_of_tell hresult hshape (by decide) htold
  refine ⟨model, after, lines, _, hfit, htold, hread, fun v hv => ?_⟩
  have hfinite := (Report.isStandard_record_iff hshape r').1.1 ⟨v, hv⟩
  obtain ⟨x, hx, hundefined⟩ := List.any_eq_true.1 hholds
  rw [hfinite.2 x hx] at hundefined
  cases hundefined

end ClusterRounds
