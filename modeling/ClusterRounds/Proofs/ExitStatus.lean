/-
  ClusterRounds.Proofs.ExitStatus

  How the program ends. Arguments that are not read to the end are answered by a status of
  usage, and no arguments by the help. A mode that succeeds ends with zero, and one that
  fails with two and a line in the log, unless its failure escapes. The ways in which it
  can are those of a fit and of generating points; an alien input and a request that comes
  to no points always do.
-/

import ClusterRounds.Proofs.Escaping
import ClusterRounds.Proofs.Generating

namespace ClusterRounds.CommandLine

open Files

variable {args rest : List String} {w : World} {f : Failure}

/-! ## Modes -/

/-- What the mode comes to that the arguments ask for, if they are read to the end. -/
inductive Asks [Machine] (args : List String) (w : World) : Outcome Unit × World → Prop
  | fit {rest : List String} {options : Arguments} (args_eq : args = "fit" :: rest)
      (read : read fitOptions ["--k"] rest = .ok options) : Asks args w (fit options w)
  | generate {rest : List String} {options : Arguments} (args_eq : args = "generate" :: rest)
      (read : read generateOptions ["--output"] rest = .ok options) :
      Asks args w (generate options w)

/-- How a mode fails without being reported. -/
inductive Escapes [Machine] (args : List String) (w : World) : Failure → Prop
  | fit {rest : List String} {options : Arguments} {f : Failure} (args_eq : args = "fit" :: rest)
      (read : read fitOptions ["--k"] rest = .ok options) (cause : FitEscapes options w f) :
      Escapes args w f
  | generate {rest : List String} {options : Arguments} {f : Failure}
      (args_eq : args = "generate" :: rest)
      (read : read generateOptions ["--output"] rest = .ok options)
      (cause : GenerateEscapes options f) : Escapes args w f

/-- How it always does: by an alien input, once there is a plan, or by a request that comes to no
    points. -/
inductive AlwaysEscapes [Machine] (args : List String) (w : World) : Failure → Prop
  | input {rest : List String} {options : Arguments} {plan : Plan Float} {place : Option Path}
      {path : String} {f : Failure} (args_eq : args = "fit" :: rest)
      (read : read fitOptions ["--k"] rest = .ok options)
      (planned : planOf options = .ok (plan, place)) (fresh : options.lookup "--resume" = none)
      (named : options.lookup "--input" = some (.text path))
      (alien : Load.AlienFile w.tree (.ofText path) (columnOf options) f) (stray : f.Stray) :
      AlwaysEscapes args w f
  | request {rest : List String} {options : Arguments} {r : Blobs.Request} {f : Failure}
      (args_eq : args = "generate" :: rest)
      (read : read generateOptions ["--output"] rest = .ok options)
      (asked : argumentsOf options = r.arguments) (fails : r.Fails f) : AlwaysEscapes args w f

/-- How the program ends. -/
inductive EndsAs [Machine] (args : List String) (w : World) : Exit × World → Prop
  /-- The arguments ask for no mode, or for help. -/
  | usage {code : Nat} (unread : ∀ result, ¬ Asks args w result) (code_eq : code = 0 ∨ code = 2) :
      EndsAs args w (.usage code, w)
  /-- There are no arguments. -/
  | nothing (empty : args = []) : EndsAs args w (.status 1 true, w)
  | success {w' : World} (asked : Asks args w (.ok (), w')) : EndsAs args w (.status 0 false, w')
  /-- A failure is reported under its name. -/
  | failure {f : Failure} {title : String} {w' : World} (asked : Asks args w (.error f, w'))
      (named : title? f = some title) :
      EndsAs args w
        (.status 2 false, { w' with log := w'.log ++ [⟨.error, title ++ ": " ++ words f⟩] })
  | escape {f : Failure} {w' : World} (asked : Asks args w (.error f, w'))
      (cause : Escapes args w f) : EndsAs args w (.defect f, w')

/-! ## Arguments that are not read -/

/-- The program ends over its arguments. -/
def IsUsage (w : World) (e : Exit × World) : Prop :=
  ∃ code, (code = 0 ∨ code = 2) ∧ e = (.usage code, w)

theorem isUsage_of_ending (ending : Ending) (w : World) : IsUsage w (ending.exit, w) := by
  cases ending with
  | help => exact ⟨0, .inl rfl, rfl⟩
  | badUsage => exact ⟨2, .inr rfl, rfl⟩

theorem isUsage_bad (w : World) : IsUsage w (.usage 2, w) := ⟨2, .inr rfl, rfl⟩

/-- A mode behind something that nobody takes is not carried out. -/
theorem isUsage_runMode (known : Known) (required : List String)
    (mode : Arguments → World → Outcome Unit × World) (args : List String) (w : World) :
    IsUsage w (runMode known required true mode args w) := by
  unfold runMode
  split
  · exact isUsage_of_ending _ w
  · exact isUsage_bad w

theorem isUsage_runFrom [Machine] : ∀ {args : List String} {stray : Bool},
    (stray = true ∨ ∃ arg rest, args = arg :: rest ∧ arg ≠ "fit" ∧ arg ≠ "generate") →
      IsUsage w (runFrom stray w args)
  | [], stray, h => by
    rcases h with rfl | ⟨_, _, heq, -⟩
    · exact isUsage_bad w
    · cases heq
  | arg :: rest, stray, h => by
    unfold runFrom
    split
    · exact isUsage_bad w
    · split
      · exact isUsage_bad w
      · rename_i hsorted
        have hname : "fit" = arg := sort_standsFor hsorted
        rcases h with rfl | ⟨_, _, heq, hfit, -⟩
        · exact isUsage_runMode ..
        · cases heq
          exact absurd hname.symm hfit
      · rename_i hsorted
        have hname : "generate" = arg := sort_standsFor hsorted
        rcases h with rfl | ⟨_, _, heq, -, hgenerate⟩
        · exact isUsage_runMode ..
        · cases heq
          exact absurd hname.symm hgenerate
      · exact isUsage_of_ending _ w
      · exact isUsage_runFrom (.inl rfl)
      · exact isUsage_bad w

/-! ## Arguments that are read -/

theorem run_fit [Machine] (rest : List String) (w : World) :
    run ("fit" :: rest) w = runMode fitOptions ["--k"] false fit rest w := by
  have hsorted : sort? mainOptions "fit" = some (.value "fit") := by decide +kernel
  unfold run runFrom
  rw [if_neg (by decide), hsorted]
  rfl

theorem run_generate [Machine] (rest : List String) (w : World) :
    run ("generate" :: rest) w
      = runMode generateOptions ["--output"] false generate rest w := by
  have hsorted : sort? mainOptions "generate" = some (.value "generate") := by decide +kernel
  unfold run runFrom
  rw [if_neg (by decide), hsorted]
  rfl

/-- The program carries out the mode that it is asked for. -/
theorem Asks.run_eq [Machine] {result : Outcome Unit × World} (h : Asks args w result) :
    run args w = finish result := by
  cases h with
  | fit args_eq hread =>
    rw [args_eq, run_fit, runMode, hread]
    rfl
  | generate args_eq hread =>
    rw [args_eq, run_generate, runMode, hread]
    rfl

theorem planned_of_read {options : Arguments} {plan : Plan Float} {place : Option Path}
    (hread : read fitOptions ["--k"] rest = .ok options)
    (hplan : planOf options = .ok (plan, place)) : Planned options plan place := by
  obtain ⟨htyped, hrequired⟩ := read_typed hread
  exact (planOf_ends htyped (hrequired "--k" List.mem_cons_self)).of_ok hplan

/-- A mode asked for escapes if its failure has no name. -/
theorem Asks.escapes [Machine] {w' : World} (h : Asks args w (.error f, w'))
    (huntitled : title? f = none) :
    Escapes args w f := by
  generalize hresult : (Except.error f, w') = result at h
  cases h with
  | fit args_eq hread =>
    obtain ⟨htyped, hrequired⟩ := read_typed hread
    have hk := hrequired "--k" List.mem_cons_self
    exact .fit args_eq hread
      (.of_untitled htyped hk (congrArg Prod.fst hresult.symm) huntitled)
  | generate args_eq hread =>
    exact .generate args_eq hread
      (.of_untitled (read_typed hread).1 (congrArg Prod.fst hresult.symm) huntitled)

theorem finish_untitled (h : title? f = none) (w : World) :
    finish (.error f, w) = (.defect f, w) := by
  simp only [finish, reportLine?, h, Option.map_none]

theorem finish_titled {title : String} (h : title? f = some title) (w : World) :
    finish (.error f, w)
      = (.status 2 false, { w with log := w.log ++ [⟨.error, title ++ ": " ++ words f⟩] }) := by
  simp only [finish, reportLine?, h, Option.map_some]

/-- A mode that is asked for ends in one of the three ways of a mode. -/
theorem Asks.endsAs [Machine] {result : Outcome Unit × World} (h : Asks args w result) :
    EndsAs args w (run args w) := by
  rw [h.run_eq]
  obtain ⟨outcome, w'⟩ := result
  cases outcome with
  | ok => exact .success h
  | error f =>
    cases htitle : title? f with
    | none =>
      rw [finish_untitled htitle]
      exact .escape h (h.escapes htitle)
    | some title =>
      rw [finish_titled htitle]
      exact .failure h htitle

/-- Arguments that are not read to the end are answered by a status of usage. -/
theorem endsAs_of_ending [Machine] {known : Known} {required : List String}
    {mode : Arguments → World → Outcome Unit × World} {ending : Ending}
    (hrun : run args w = runMode known required false mode rest w)
    (hread : read known required rest = .error ending) (hunread : ∀ result, ¬ Asks args w result) :
    EndsAs args w (run args w) := by
  obtain ⟨code, hcode, heq⟩ := isUsage_of_ending ending w
  rw [hrun, runMode, hread]
  show EndsAs args w (ending.exit, w)
  rw [heq]
  exact .usage hunread hcode

theorem run_endsAs [Machine] (args : List String) (w : World) : EndsAs args w (run args w) := by
  match args with
  | [] => exact .nothing rfl
  | arg :: rest =>
    by_cases hfit : arg = "fit"
    · subst hfit
      cases hread : read fitOptions ["--k"] rest with
      | ok options => exact (Asks.fit rfl hread).endsAs
      | error ending =>
        refine endsAs_of_ending (run_fit rest w) hread fun result h => ?_
        rcases h with ⟨heq, hread'⟩ | ⟨heq, -⟩
        · cases heq
          rw [hread] at hread'
          cases hread'
        · simp at heq
    · by_cases hgenerate : arg = "generate"
      · subst hgenerate
        cases hread : read generateOptions ["--output"] rest with
        | ok options => exact (Asks.generate rfl hread).endsAs
        | error ending =>
          refine endsAs_of_ending (run_generate rest w) hread fun result h => ?_
          rcases h with ⟨heq, -⟩ | ⟨heq, hread'⟩
          · simp at heq
          · cases heq
            rw [hread] at hread'
            cases hread'
      · obtain ⟨code, hcode, heq⟩ : IsUsage w (run (arg :: rest) w) :=
          isUsage_runFrom (.inr ⟨arg, rest, rfl, hfit, hgenerate⟩)
        rw [heq]
        refine .usage (fun result h => ?_) hcode
        rcases h with ⟨heq, -⟩ | ⟨heq, -⟩
        · exact hfit (List.cons.inj heq).1
        · exact hgenerate (List.cons.inj heq).1

/-! ## The exit status -/

/-- What always escapes ends the program. -/
theorem AlwaysEscapes.run_eq [Machine] (h : AlwaysEscapes args w f) : (run args w).1 = .defect f := by
  have hfinish : ∀ {result : Outcome Unit × World}, Asks args w result → result.1 = .error f →
      title? f = none → (run args w).1 = .defect f := by
    rintro ⟨_, w'⟩ hasks rfl huntitled
    rw [hasks.run_eq, finish_untitled huntitled]
  cases h with
  | input args_eq hread hplan hfresh hnamed halien hstray =>
    have hplanned := planned_of_read hread hplan
    exact hfinish (.fit args_eq hread) (fit_of_alien hplan hplanned hfresh hnamed halien hstray)
      hstray.2
  | request args_eq hread hasked hfails =>
    exact hfinish (.generate args_eq hread) (generate_of_fails hasked hfails)
      (untitled_of_fails hfails)

/-- However the program is called and whatever its files hold, it ends in one of five ways: a mode
    that fails ends with the status two and the line of its failure, unless the failure is one of
    those that escape. An alien input always does, and so does a request that comes to no points. -/
theorem exit_status_tells_failures [Machine] (args : List String) (w : World) :
    EndsAs args w (run args w) ∧ ∀ f, AlwaysEscapes args w f → (run args w).1 = .defect f :=
  ⟨run_endsAs args w, fun _ h => h.run_eq⟩

/-- No points at all are asked for. -/
theorem exit_status_tells_failures_sample :
    (run ["generate", "--output", "points.npy", "--N", "0"]
      ⟨.ofDirectory "data", ⟨[], 0, 1⟩, []⟩).1 = .defect .datasetParameters := by
  have hsorted : sortAll generateOptions ["--output", "points.npy", "--N", "0"]
      = some [.option "--output" .text .nothing, .value "points.npy",
        .option "--N" .integer .nothing, .value "0"] := by decide +kernel
  have hread : read generateOptions ["--output"] ["--output", "points.npy", "--N", "0"]
      = .ok [("--N", .int 0), ("--output", .text "points.npy")] := by
    rw [read, hsorted]
    rfl
  have hsenseless : ¬ (⟨0, 2, 4, 1, 42⟩ : Blobs.Request).IsSensible := fun h =>
    absurd h.points (by decide)
  exact (exit_status_tells_failures _ _).2 _ (.request rfl hread rfl (.senseless hsenseless))

/-- The only line of the input is the number five, which is no record. -/
theorem number_record_escapes :
    (run ["fit", "--input", "b.jsonl", "--k", "1"]
      ⟨⟨[[]], [(["b.jsonl"], .text "5")]⟩, ⟨[], 0, 1⟩, []⟩).1 = .defect (.operand .wrongKind) := by
  have hsorted : sortAll fitOptions ["--input", "b.jsonl", "--k", "1"]
      = some [.option "--input" .text .nothing, .value "b.jsonl", .option "--k" .integer .nothing,
        .value "1"] := by decide +kernel
  have hread : read fitOptions ["--k"] ["--input", "b.jsonl", "--k", "1"]
      = .ok [("--k", .int 1), ("--input", .text "b.jsonl")] := by
    rw [read, hsorted]
    rfl
  have hplans : (planOf [("--k", .int 1), ("--input", .text "b.jsonl")]).toOption.isSome = true := by
    rfl
  obtain ⟨plan, place, hplan⟩ : ∃ plan place,
      planOf [("--k", .int 1), ("--input", .text "b.jsonl")] = .ok (plan, place) := by
    cases h : planOf [("--k", .int 1), ("--input", .text "b.jsonl")] with
    | ok made => exact ⟨made.1, made.2, rfl⟩
    | error f =>
      rw [h] at hplans
      cases hplans
  have htext : (Path.ofText "b.jsonl").text = "b.jsonl" := by decide +kernel
  have hfault : Path.faultOf? "b.jsonl" = none := by decide +kernel
  have hsteps : Path.stepsOf "b.jsonl" = ["b.jsonl"] := by decide +kernel
  have hcontent : Tree.read ⟨[[]], [(["b.jsonl"], .text "5")]⟩ (Path.ofText "b.jsonl").text
      = .ok (.text "5") := by
    rw [htext, Tree.read, Tree.look, hfault, Tree.find, hsteps]
    rfl
  have hsplit : Lines.ofContent (.text "5") = .ok [['5']] := rfl
  have hparse : Load.records [['5']] = .ok ([] ++ Value.int 5 :: []) := rfl
  have hnumber : Records.Alien "features" (.int 5) .wrongKind := .bare (.inr ⟨_, rfl⟩)
  exact AlwaysEscapes.run_eq (.input rfl hread hplan rfl rfl
    (.record rfl hcontent hsplit hparse rfl hnumber) (Failure.stray_operand.2 (by decide)))

end ClusterRounds.CommandLine
