/-
  ClusterRounds.Proofs.Planning

  The plan that the options of a fit describe. Every option that has been read is of the
  kind that the plan wants, so making it can only fail because a value is out of range or
  a name is not known, and both are reported as errors of the configuration. The measure
  is the Euclidean one then, no round is cut off, and there is no chunk size.
-/

import ClusterRounds.CommandLine.Run
import ClusterRounds.Proofs.Arguments

namespace ClusterRounds

open Files

/-! ## Values of the right kinds -/

/-- The tolerance of an option: nothing, or a double. -/
theorem Settings.tolerance?_ends {v : Value} (hv : v = .null ∨ ∃ x, v = .float x) :
    Outcome.Ends (tolerance? v) (fun _ => True) Failure.IsConfiguration := by
  rcases hv with rfl | ⟨x, rfl⟩
  · exact True.intro
  · show Outcome.Ends (if _ then _ else _) _ _
    split
    · exact ⟨_, rfl⟩
    · exact True.intro

theorem Registry.get_ends {α : Type} (registry : Registry α) (name : Value) :
    Outcome.Ends (registry.get name) (fun m => registry.get name = .ok m)
      (fun e => e = .configuration (.unknownMeasure name registry.names)) := by
  refine Outcome.ends_of (fun _ hm => hm) fun e he => ?_
  unfold Registry.get at he
  dsimp only at he
  split at he
  · cases he
  · exact (Except.error.inj he).symm

/-- Settings out of values of the right kinds: a value that is out of range is reported. -/
theorem Settings.ofArguments_ends {α : Type} (registry : Registry α) {args : Arguments}
    {k rounds seed : Int} {measure column : String}
    (hknown : args.onlyKnown ["k", "max_iterations", "seed", "distance_measure", "features_column",
      "tol", "empty_cluster_policy"] = .ok ())
    (hk : args.get "k" (.int 2) = .int k) (hrounds : args.get "max_iterations" (.int 20) = .int rounds)
    (hseed : args.get "seed" (.int 0) = .int seed)
    (hmeasure : args.get "distance_measure" (.text "euclidean") = .text measure)
    (hcolumn : args.get "features_column" (.text "features") = .text column)
    (htolerance : args.get "tol" .null = .null ∨ ∃ x, args.get "tol" .null = .float x)
    (hpolicy : args.get "empty_cluster_policy" (.text "retain") = .text "retain") :
    Outcome.Ends (Settings.ofArguments registry args)
      (fun settings => settings.measure = measure ∧ settings.featuresColumn = .text column)
      Failure.IsConfiguration := by
  unfold Settings.ofArguments
  simp only [hknown, hk, hrounds, hseed, hmeasure, hcolumn, hpolicy, Outcome.ends_bind,
    Outcome.ends_ok]
  split
  · split
    · rw [Outcome.ends_bind]
      refine (tolerance?_ends htolerance).mono (fun tolerance _ => ?_) fun _ he => he
      split
      · exact ⟨_, rfl⟩
      · rw [Outcome.ends_bind, Outcome.ends_discard]
        exact (registry.get_ends _).mono (fun _ _ => ⟨rfl, rfl⟩) fun _ he => ⟨_, he⟩
    · exact ⟨_, rfl⟩
  · exact ⟨_, rfl⟩

theorem atLeastOne_ends (setting : String) (n : Int) :
    Outcome.Ends (atLeastOne setting (.int n)) (fun q => q = .int n)
      Failure.IsConfiguration := by
  show Outcome.Ends (if _ then _ else _) _ _
  split
  · exact ⟨_, rfl⟩
  · exact rfl

theorem Execution.ofArguments_ends (partitions workers : Int) :
    Outcome.Ends (Execution.ofArguments
      [("n_partitions", .int partitions), ("n_workers", .int workers)])
      (fun e => e.partitions = .int partitions ∧ e.workers = .int workers ∧ e.chunk = none ∧
        e.timeout = .null)
      Failure.IsConfiguration := by
  have hknown : Arguments.onlyKnown
      [("n_partitions", .int partitions), ("n_workers", .int workers)]
      ["n_partitions", "n_workers", "chunk_size", "barrier_timeout"] = .ok () := rfl
  simp only [Execution.ofArguments, hknown, Outcome.ends_bind, Outcome.ends_ok]
  refine (atLeastOne_ends _ partitions).mono (fun p hp => ?_) fun _ he => he
  exact (atLeastOne_ends _ workers).mono (fun w hw => ⟨hp, hw, rfl, rfl⟩) fun _ he => he

theorem Files.checkpointing_ends (location : String) (often : Int) :
    Outcome.Ends (checkpointing [("path", .text location), ("every_n_rounds", .int often)])
      (fun checkpoint => checkpoint.1 = .ofText location)
      Failure.IsConfiguration := by
  have hknown : Arguments.onlyKnown
      [("path", .text location), ("every_n_rounds", .int often)] ["path", "every_n_rounds"]
      = .ok () := rfl
  have hpath : List.lookup "path" [("path", Value.text location), ("every_n_rounds", .int often)]
      = some (.text location) := rfl
  simp only [checkpointing, hknown, hpath, Outcome.ends_bind, Outcome.ends_ok, Outcome.ends_pure]
  exact (atLeastOne_ends _ often).mono (fun _ _ => True.intro) fun _ he => he

namespace CommandLine

/-! ## Failures with a name -/

/-- What is said of the settings or the inputs is reported. -/
theorem titled_configuration {f : Failure} (h : f.IsConfiguration) : title? f ≠ none := by
  obtain ⟨fault, rfl⟩ := h
  exact fun h => nomatch h

/-- So is what is said of a checkpoint. -/
theorem titled_recovery {f : Failure} (h : ∃ fault, f = .recovery fault) : title? f ≠ none := by
  obtain ⟨fault, rfl⟩ := h
  exact fun h => nomatch h

/-- And what is one of the files. -/
theorem isOfFiles_of_untitled {fault : FileFault} (h : title? (.file fault) = none) :
    fault.isOfFiles = false := by
  rw [← Bool.not_eq_true]
  intro hfiles
  rw [title?, if_pos hfiles] at h
  cases h

/-! ## The plan of a fit -/

/-- The column that the options name. -/
def columnOf (options : Arguments) : String :=
  match options.get "--features-column" (.text "features") with
  | .text column => column
  | _ => ""

/-- The plan that the options describe, with the place of its checkpoint. -/
structure Planned (options : Arguments) (plan : Plan Float) (place : Option Path) : Prop where
  measure : plan.measure = .euclidean "EuclideanDistanceMeasure"
  column : plan.settings.featuresColumn = .text (columnOf options)
  partitions : ∃ n, options.get "--partitions" (.int Execution.processors) = .int n ∧
    plan.execution.partitions = .int n
  workers : ∃ n, plan.execution.workers = .int n
  chunk : plan.execution.chunk = none
  unlimited : plan.execution.timeout = .null
  place_eq : place = if (textOption options "--checkpoint").isEmpty then none
    else some (.ofText (textOption options "--checkpoint"))
  period : plan.period.isSome = place.isSome

variable {options : Arguments}

/-- An option that has been read or is left out has a value of its kind, if its default has. -/
theorem Typed.get_suits {known : Known} (h : Typed known options) {name : String} {taking : Taking}
    (honly : ∀ t, (name, t) ∈ known → t = taking) {default : Value} (hdefault : taking.Suits default) :
    taking.Suits (options.get name default) := by
  unfold Arguments.get
  cases hlookup : options.lookup name with
  | none => exact hdefault
  | some v => exact h.suits hlookup honly

theorem Typed.exists_int {known : Known} (h : Typed known options) (name : String)
    (honly : ∀ t, (name, t) ∈ known → t = .integer) (default : Int) :
    ∃ i, options.get name (.int default) = .int i :=
  h.get_suits honly ⟨default, rfl⟩

theorem Typed.exists_text {known : Known} (h : Typed known options) (name : String)
    (honly : ∀ t, (name, t) ∈ known → t = .text) (default : String) :
    ∃ s, options.get name (.text default) = .text s :=
  h.get_suits honly ⟨default, rfl⟩

theorem Typed.exists_float {known : Known} (h : Typed known options) (name : String)
    (honly : ∀ t, (name, t) ∈ known → t = .float) (default : Float) :
    ∃ x, options.get name (.float default) = .float x :=
  h.get_suits honly ⟨default, rfl⟩

theorem get_standard {name : String} {m : Measure Float}
    (h : (Registry.standard : Registry Float).get (.text name) = .ok m) :
    m = .euclidean "EuclideanDistanceMeasure" := by
  unfold Registry.get Registry.standard at h
  dsimp only at h
  split at h
  · rename_i found hfound
    cases h
    have hmem := mem_of_lookup hfound
    exact (by simpa using hmem : _ ∧ _).2
  · cases h

/-- Options that have been read describe a plan, or are out of range, which is reported. -/
theorem planOf_ends (h : Typed fitOptions options) (hk : ∃ v, options.lookup "--k" = some v) :
    Outcome.Ends (planOf options) (fun made => Planned options made.1 made.2)
      Failure.IsConfiguration := by
  obtain ⟨v, hk⟩ := hk
  have hsuits : Taking.integer.Suits v := h.suits hk (by simp [fitOptions])
  obtain ⟨k, rfl⟩ := hsuits
  obtain ⟨rounds, hrounds⟩ := h.exists_int "--max-iterations" (by simp [fitOptions]) 20
  obtain ⟨seed, hseed⟩ := h.exists_int "--seed" (by simp [fitOptions]) 0
  obtain ⟨partitions, hpartitions⟩ :=
    h.exists_int "--partitions" (by simp [fitOptions]) Execution.processors
  obtain ⟨workers, hworkers⟩ :=
    h.exists_int "--workers" (by simp [fitOptions]) Execution.processors
  obtain ⟨often, hoften⟩ := h.exists_int "--checkpoint-every" (by simp [fitOptions]) 1
  obtain ⟨measure, hmeasure⟩ :=
    h.exists_text "--distance-measure" (by simp [fitOptions]) "euclidean"
  obtain ⟨column, hcolumn⟩ :=
    h.exists_text "--features-column" (by simp [fitOptions]) "features"
  have htolerance : options.get "--tol" .null = .null ∨ ∃ x, options.get "--tol" .null = .float x := by
    unfold Arguments.get
    cases hlookup : options.lookup "--tol" with
    | none => exact .inl rfl
    | some v =>
      have hsuits : Taking.float.Suits v := h.suits hlookup (by simp [fitOptions])
      exact .inr hsuits
  have hk : options.get "--k" .null = .int k := by rw [Arguments.get, hk, Option.getD_some]
  unfold planOf
  simp only [hk, hrounds, hseed, hpartitions, hworkers, hoften, hmeasure, hcolumn,
    Outcome.ends_bind]
  refine (Settings.ofArguments_ends _ rfl rfl rfl rfl rfl rfl htolerance rfl).mono
    (fun settings hs => ?_) fun _ he => he
  obtain ⟨hsettings_measure, hsettings_column⟩ := hs
  refine (Execution.ofArguments_ends partitions workers).mono (fun execution hexecution => ?_)
    fun _ he => he
  obtain ⟨hparts, hwork, hchunk, htimeout⟩ := hexecution
  have hcolumnOf : settings.featuresColumn = .text (columnOf options) := by
    rw [hsettings_column, columnOf, hcolumn]
  split
  · rename_i hempty
    rw [pure_bind, Outcome.ends_bind]
    refine (Registry.get_ends _ _).mono (fun m hm => ?_) fun _ he => ⟨_, he⟩
    exact ⟨get_standard hm, hcolumnOf, ⟨_, hpartitions, hparts⟩, ⟨_, hwork⟩, hchunk, htimeout,
      (if_pos hempty).symm, rfl⟩
  · rename_i hlocation
    rw [Outcome.ends_bind, Outcome.ends_map]
    refine (checkpointing_ends _ often).mono (fun checkpoint hcheckpoint => ?_) fun _ he => he
    rw [Outcome.ends_bind]
    refine (Registry.get_ends _ _).mono (fun m hm => ?_) fun _ he => ⟨_, he⟩
    refine ⟨get_standard hm, hcolumnOf, ⟨_, hpartitions, hparts⟩, ⟨_, hwork⟩, hchunk, htimeout, ?_, rfl⟩
    show some checkpoint.1 = _
    rw [hcheckpoint, if_neg hlocation]

end CommandLine

end ClusterRounds
