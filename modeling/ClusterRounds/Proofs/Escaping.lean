/-
  ClusterRounds.Proofs.Escaping

  The failures of a fit that are not reported under a name. There are seven ways to them,
  and each is seen from the options and the files: an alien input, more partitions than a
  list can hold, points without coordinates, a checkpoint whose place has no name or no
  path, a checkpoint that is not the record of a run, more operations than a double can
  count, and an output that is no path.
-/

import ClusterRounds.Proofs.Fitting
import ClusterRounds.Proofs.Loading
import ClusterRounds.Proofs.Planning
import ClusterRounds.Proofs.Reporting

namespace ClusterRounds.CommandLine

open Files

variable {options : Arguments} {w : World} {f : Failure}

/-! ## The stages of a fit -/

/-- The estimator that a fit works with. -/
def estimatorOf (w : World) (plan : Plan Float) (place : Option Path) : Estimator Float :=
  ⟨plan, 0, place.elim (.empty "") (slotAt w.tree), w.clock⟩

theorem Planned.able {plan : Plan Float} {place : Option Path} (h : Planned options plan place) :
    plan.Able plan.settings where
  settings_eq := rfl
  answers := by
    rw [h.measure]
    exact (Measure.rowByRow_euclidean _).answers
  unlimited := h.unlimited
  workers := by
    obtain ⟨n, hn⟩ := h.workers
    exact ⟨n, by rw [hn]; rfl⟩

theorem Planned.answersAt {plan : Plan Float} {place : Option Path} (h : Planned options plan place)
    (width : Nat) : plan.measure.AnswersAt width := by
  rw [h.measure]
  exact (Measure.rowByRow_euclidean _).answersAt width

/-! ## The place of the checkpoint -/

/-- That it cannot be told what is at a path is a failure of the files. -/
theorem isOfFiles_of_isThere {t : Tree} {location : String} {fault : FileFault}
    (h : t.isThere location = .error fault) : fault.isOfFiles = true := by
  unfold Tree.isThere at h
  split at h
  · cases h
  · cases h
  · cases h
  · split at h
    · cases h
      assumption
    · cases h

/-- Why a place refuses with a failure that is not reported: something stands in the way of a
    save. -/
theorem obstacle_of_refuses {tree : Tree} {p : Path} (h : (slotAt tree p).Refuses f)
    (huntitled : title? f = none) : ∃ o, obstacleAt tree p = some o ∧ f = o.failure := by
  cases h with
  | save hobstacle => exact ⟨_, hobstacle, rfl⟩
  | directory => cases huntitled
  | @outOfReach fault hheld =>
    have hfiles : fault.isOfFiles = true := by
      unfold slotAt heldAt at hheld
      dsimp only at hheld
      split at hheld
      · cases hheld
        exact isOfFiles_of_isThere ‹_›
      · cases hheld
      · split at hheld <;> cases hheld
    rw [isOfFiles_of_untitled huntitled] at hfiles
    cases hfiles

/-- A place that was not asked for refuses nothing. -/
theorem not_refuses_empty : ¬ (Slot.empty "" : Slot Float).Refuses f := by
  rintro (⟨hobstacle⟩ | hheld | hheld)
  · cases hobstacle
  · cases hheld
  · cases hheld

/-! ## The failures of a fit -/

/-- How a fit fails without being reported. -/
inductive FitEscapes [Machine] (options : Arguments) (w : World) : Failure → Prop
  /-- The file of the input is alien. -/
  | input {path : String} {f : Failure} (fresh : options.lookup "--resume" = none)
      (named : options.lookup "--input" = some (.text path))
      (alien : Load.AlienFile w.tree (.ofText path) (columnOf options) f) (stray : f.Stray) :
      FitEscapes options w f
  /-- More partitions are asked for than a list can hold. -/
  | partitions {count : Int} {fault : OperandFault}
      (asked : options.get "--partitions" (.int Execution.processors) = .int count)
      (many : Split.TooMany count) : FitEscapes options w (.operand fault)
  /-- The points of the input have no coordinates. -/
  | noCoordinates {path : String} {points : Tensor Float} {n : Nat}
      (fresh : options.lookup "--resume" = none)
      (named : options.lookup "--input" = some (.text path))
      (loaded : Load.points w.tree (.ofText path) (.text (columnOf options)) = .ok points)
      (shape : points.shape = [n, 0]) : FitEscapes options w (.operand .noElements)
  /-- Something stands in the way of a checkpoint. -/
  | place {o : Obstacle} (asked : (textOption options "--checkpoint").isEmpty = false)
      (obstacle : obstacleAt w.tree (.ofText (textOption options "--checkpoint")) = some o) :
      FitEscapes options w o.failure
  /-- The checkpoint that is taken up is not the record of a run under the settings. -/
  | snapshot {plan : Plan Float} {p : Path} {z : Snapshot Float} {f : Failure}
      (resumed : (options.lookup "--resume").isSome) (planned : planOf options = .ok (plan, some p))
      (held : heldAt w.tree p = .snapshot z) (other : ¬ z.IsRecord plan.settings) :
      FitEscapes options w f
  /-- The operations of the run are more than a double can count. -/
  | operations {plan : Plan Float} {place : Option Path} {model : Model Float} {r : RunResult Float}
      {k width : Nat} (planned : planOf options = .ok (plan, place))
      (answer : (fitted w.tree options (estimatorOf w plan place)).answer = .ok model)
      (result : model.result = some r) (shape : model.centroids.shape = [k, width])
      (many : Number.floatOfInt? (Report.operations k width r) = none) :
      FitEscapes options w (.operand .tooLarge)
  /-- The output is no path. -/
  | output {fault : FileFault} (path : Path.faultOf? (textOption options "--output") = some fault)
      (fault_eq : fault.isOfFiles = false) : FitEscapes options w (.file fault)

section Fit

variable {plan : Plan Float} {place : Option Path}

/-- A refusal of the place comes from a checkpoint that was asked for. -/
theorem FitEscapes.of_refuses [Machine] (hplanned : Planned options plan place)
    (h : (estimatorOf w plan place).slot.Refuses f) (huntitled : title? f = none) :
    FitEscapes options w f := by
  have hplace := hplanned.place_eq
  split at hplace
  · rw [hplace] at h
    exact absurd h not_refuses_empty
  · rename_i hasked
    rw [hplace] at h
    obtain ⟨o, ho, rfl⟩ := obstacle_of_refuses h huntitled
    exact .place (Bool.eq_false_iff.2 hasked) ho

/-- A snapshot that is taken up lies in the place that the plan names. -/
theorem FitEscapes.of_holdsOther [Machine] (hplan : planOf options = .ok (plan, place))
    (hresumed : (options.lookup "--resume").isSome)
    (h : (estimatorOf w plan place).slot.HoldsOther plan.settings) : FitEscapes options w f := by
  obtain ⟨z, hheld, hother⟩ := h
  cases place with
  | none => cases hheld
  | some p => exact .snapshot hresumed hplan hheld hother

/-- The model is one that can be reported on, unless a foreign checkpoint has been taken up. -/
def Reportable (options : Arguments) (w : World) (plan : Plan Float) (place : Option Path)
    (model : Model Float) : Prop :=
  (∃ r, model.result = some r) ∧
    ((options.lookup "--resume").isSome ∧
        (estimatorOf w plan place).slot.HoldsOther plan.settings ∨
      ∃ width, model.centroids.shape = [plan.settings.k, width])

/-- How a resumed fit ends. -/
theorem resumed_ends [Machine] (hplan : planOf options = .ok (plan, place))
    (hplanned : Planned options plan place) (hresumed : (options.lookup "--resume").isSome) :
    Outcome.Ends (fitted w.tree options (estimatorOf w plan place)).answer
      (Reportable options w plan place) (fun f => title? f = none → FitEscapes options w f) := by
  rw [fitted, if_pos hresumed]
  refine (Estimator.resume_ends hplanned.able).mono (fun model hmodel => ?_)
    fun f hf huntitled => ?_
  · exact ⟨hmodel.2, hmodel.1.imp_left fun hother => ⟨hresumed, hother⟩⟩
  · rcases hf with hother | hf | hf | hf
    · exact .of_holdsOther hplan hresumed hother
    · exact absurd huntitled (titled_configuration hf)
    · exact absurd huntitled (titled_recovery hf)
    · exact .of_refuses hplanned hf huntitled

/-- The points of the input fail to load without being reported exactly if its file is alien. -/
theorem loadInput_eq_untitled [Machine] {path : String}
    (hnamed : options.lookup "--input" = some (.text path))
    (huntitled : title? f = none) {column : String} :
    loadInput w.tree options (.text column) = .error f ↔
      Load.AlienFile w.tree (.ofText path) column f ∧ f.Stray := by
  unfold loadInput
  simp only [hnamed]
  cases hpoints : Load.points w.tree (.ofText path) (.text column) with
  | ok points =>
    refine iff_of_false (fun h => nomatch h) ?_
    rintro ⟨halien, hstray⟩
    rw [(Load.points_eq_stray hstray).2 halien] at hpoints
    cases hpoints
  | error f' =>
    show Except.error _ = Except.error f ↔ _
    rw [Except.error.injEq]
    constructor
    · intro hf
      split at hf
      · rw [← hf] at huntitled
        cases huntitled
      · rename_i hdue
        subst hf
        have hstray : f'.Stray := ⟨Bool.eq_false_iff.2 hdue, huntitled⟩
        exact ⟨(Load.points_eq_stray hstray).1 hpoints, hstray⟩
    · rintro ⟨halien, hstray⟩
      cases ((Load.points_eq_stray hstray).2 halien).symm.trans hpoints
      rw [if_neg (Bool.eq_false_iff.1 hstray.1)]

theorem points_of_loadInput [Machine] {path : String}
    (hnamed : options.lookup "--input" = some (.text path))
    {column : Value} {points : Tensor Float} (h : loadInput w.tree options column = .ok points) :
    Load.points w.tree (.ofText path) column = .ok points := by
  unfold loadInput at h
  simp only [hnamed] at h
  split at h
  · cases h
    assumption
  · cases h

/-- An input is named, or that is reported. -/
theorem input_cases [Machine] (tree : Tree) (options : Arguments) (column : Value) :
    (∃ path, options.lookup "--input" = some (.text path)) ∨
      loadInput tree options column = .error .noInput := by
  unfold loadInput
  split
  · exact .inl ⟨_, ‹_›⟩
  · exact .inr rfl

/-- How a fresh fit ends. -/
theorem fresh_ends [Machine] (hplanned : Planned options plan place)
    (hfresh : options.lookup "--resume" = none) :
    Outcome.Ends (fitted w.tree options (estimatorOf w plan place)).answer
      (Reportable options w plan place) (fun f => title? f = none → FitEscapes options w f) := by
  have hcolumn : (estimatorOf w plan place).plan.settings.featuresColumn
      = .text (columnOf options) := hplanned.column
  rw [fitted, hfresh, if_neg (by simp), hcolumn]
  rcases input_cases w.tree options (.text (columnOf options)) with ⟨path, hnamed⟩ | hnone
  · cases hload : loadInput w.tree options (.text (columnOf options)) with
    | error f =>
      intro huntitled
      obtain ⟨halien, hstray⟩ := (loadInput_eq_untitled hnamed huntitled).1 hload
      exact .input hfresh hnamed halien hstray
    | ok points =>
      have hpoints := points_of_loadInput hnamed hload
      obtain ⟨n, width, hshape⟩ := Load.shape_points hpoints
      obtain ⟨count, hasked, hcount⟩ := hplanned.partitions
      refine (Estimator.fit_ends hplanned.able (hplanned.answersAt width) hshape hcount
        hplanned.chunk).mono (fun model hmodel => ⟨hmodel.2, .inr ⟨width, hmodel.1⟩⟩)
        fun f hf huntitled => ?_
      rcases hf with hf | ⟨hmany, fault, rfl⟩ | hrefuses | ⟨rfl, rfl⟩
      · exact absurd huntitled (titled_configuration hf)
      · exact .partitions hasked hmany
      · exact .of_refuses hplanned hrefuses huntitled
      · exact .noCoordinates hfresh hnamed hpoints hshape
  · rw [hnone]
    exact fun huntitled => nomatch huntitled

/-- The report on a model that fails without being reported. -/
theorem FitEscapes.of_tell [Machine] (hplan : planOf options = .ok (plan, place)) {model : Model Float}
    (hanswer : (fitted w.tree options (estimatorOf w plan place)).answer = .ok model)
    (hmodel : Reportable options w plan place model) {tree : Tree}
    (hfails : (Report.tell tree model (textOption options "--output")).1 = .error f)
    (huntitled : title? f = none) : FitEscapes options w f := by
  obtain ⟨⟨r, hr⟩, ⟨hresumed, hother⟩ | ⟨width, hshape⟩⟩ := hmodel
  · exact .of_holdsOther hplan hresumed hother
  · rcases (Report.tell_ends tree hr hshape _).of_error hfails with ⟨rfl, hmany⟩ | ⟨fault, rfl, hfault⟩
    · exact .operations hplan hanswer hr hshape hmany
    · have hfiles := isOfFiles_of_untitled huntitled
      exact .output (hfault.resolve_left (Bool.eq_false_iff.1 hfiles)) hfiles

/-- A fit with options that have been read escapes in one of the seven ways. -/
theorem FitEscapes.of_untitled [Machine] (htyped : Typed fitOptions options)
    (hk : ∃ v, options.lookup "--k" = some v) (hfails : (fit options w).1 = .error f)
    (huntitled : title? f = none) : FitEscapes options w f := by
  have hplanOf := planOf_ends htyped hk
  unfold fit at hfails
  cases hplan : planOf options with
  | error f' =>
    rw [hplan] at hfails
    cases hfails
    exact absurd huntitled (titled_configuration (hplanOf.of_error hplan))
  | ok made =>
    obtain ⟨plan, place⟩ := made
    have hplanned : Planned options plan place := hplanOf.of_ok hplan
    have hends : Outcome.Ends (fitted w.tree options (estimatorOf w plan place)).answer
        (Reportable options w plan place) (fun f => title? f = none → FitEscapes options w f) := by
      by_cases hresumed : (options.lookup "--resume").isSome
      · exact resumed_ends hplan hplanned hresumed
      · exact fresh_ends hplanned (Option.not_isSome_iff_eq_none.1 hresumed)
    simp only [hplan] at hfails
    split at hfails
    · rename_i f' hanswer
      cases hfails
      exact hends.of_error hanswer huntitled
    · rename_i model hanswer
      exact .of_tell hplan hanswer (hends.of_ok hanswer) hfails huntitled

/-- Surely it does if its file is alien, once there is a plan. -/
theorem fit_of_alien [Machine] (hplan : planOf options = .ok (plan, place))
    (hplanned : Planned options plan place) (hfresh : options.lookup "--resume" = none)
    {path : String} (hnamed : options.lookup "--input" = some (.text path))
    (halien : Load.AlienFile w.tree (.ofText path) (columnOf options) f) (hstray : f.Stray) :
    (fit options w).1 = .error f := by
  have hload := (loadInput_eq_untitled hnamed hstray.2).2 ⟨halien, hstray⟩
  have hanswer : (fitted w.tree options (estimatorOf w plan place)).answer = .error f := by
    have hcolumn : (estimatorOf w plan place).plan.settings.featuresColumn
        = .text (columnOf options) := hplanned.column
    rw [fitted, hfresh, if_neg (by simp), hcolumn, hload]
  unfold fit
  simp only [hplan]
  unfold estimatorOf at hanswer
  rw [hanswer]

end Fit

end ClusterRounds.CommandLine
