/-
  ClusterRounds.Proofs.Configuring

  Which raw values make settings. `Settings.HoldsOf` says it field by field, and settings are
  made exactly of such values. All others are reported as errors of the configuration, but for a
  tolerance that has no place among the numbers: it is compared before anybody asks what it is.
  The report writes out the value that is refused, and fails itself if that has no text
  (`Failure.Refuses.told`). Two fields are checked too little. The undefined number is not below
  zero and so passes for a tolerance, and anything that is not empty passes for a column. Such
  settings may differ from those made of the same values again, and then no checkpoint that was
  saved under them is taken up.
-/

import ClusterRounds.Proofs.Acceptance
import ClusterRounds.Proofs.Doubles
import ClusterRounds.Proofs.Planning
import ClusterRounds.Proofs.Unfailing

namespace ClusterRounds

/-! ## Quantities and values that equal their copies -/

/-- Is the quantity the undefined number? -/
def Quantity.isUndefined : Quantity → Bool
  | .float x => x.isNaN
  | _ => false

namespace Quantity

theorem compareInt_eq_none {q : Quantity} {i : Int} :
    q.compareInt i = none ↔ q.isUndefined = true := by
  cases q with
  | flag b => simp [compareInt, isUndefined]
  | int n => simp [compareInt, isUndefined]
  | float x =>
    have hstatus := Number.Parts.status_ofFloat x
    show (Number.Parts.ofFloat x).compareInt i = none ↔ x.isNaN = true
    cases hparts : Number.Parts.ofFloat x with
    | undefined =>
      rw [hparts] at hstatus
      exact iff_of_true rfl hstatus.1
    | infinite negative =>
      rw [hparts] at hstatus
      exact iff_of_false (Option.some_ne_none _) (Bool.not_eq_true _ ▸ hstatus.1)
    | finite negative m e =>
      rw [hparts] at hstatus
      refine iff_of_false ?_ (Bool.not_eq_true _ ▸ hstatus.1)
      unfold Number.Parts.compareInt
      dsimp only
      repeat' split
      all_goals exact Option.some_ne_none _

/-- A quantity that is not below an integer is equal to it, above it, or undefined. -/
theorem not_ltInt {q : Quantity} {i : Int} (h : q.ltInt i = false) :
    q.isUndefined = false ↔ q.compareInt i = some .eq ∨ q.compareInt i = some .gt := by
  rw [← Bool.not_eq_true, ← compareInt_eq_none (i := i)]
  unfold ltInt at h
  cases hcompare : q.compareInt i with
  | none => simp
  | some o =>
    rw [hcompare] at h
    cases o <;> simp_all

theorem compareFloat_of_isNaN {x : Float} (h : x.isNaN = true) :
    compareFloat x (.float x) = none := by
  obtain rfl : x = Float.nan := by simpa using h
  decide +kernel

theorem equal_self_iff {q : Quantity} : q.equal q = true ↔ q.isUndefined = false := by
  constructor
  · intro h
    cases q with
    | flag b => rfl
    | int i => rfl
    | float x =>
      show x.isNaN = false
      rw [← Bool.not_eq_true]
      intro hnan
      rw [equal, compareFloat_of_isNaN hnan] at h
      cases h
  · intro h
    apply equal_self
    rintro x rfl
    exact h

end Quantity

namespace Value

mutual

/-- Is there no undefined number in the value? -/
def isDefined : Value → Bool
  | null | bool _ | int _ | text _ => true
  | float x => !x.isNaN
  | list items => areDefined items
  | record fields => fieldsDefined fields

def areDefined : List Value → Bool
  | [] => true
  | v :: rest => v.isDefined && areDefined rest

def fieldsDefined : List (String × Value) → Bool
  | [] => true
  | (_, v) :: rest => v.isDefined && fieldsDefined rest

end

mutual

/-- No record in the value has two fields of one name. -/
def Proper : Value → Prop
  | null | bool _ | int _ | float _ | text _ => True
  | list items => AllProper items
  | record fields => (fields.map (·.1)).Nodup ∧ FieldsProper fields

def AllProper : List Value → Prop
  | [] => True
  | v :: rest => v.Proper ∧ AllProper rest

def FieldsProper : List (String × Value) → Prop
  | [] => True
  | (_, v) :: rest => v.Proper ∧ FieldsProper rest

end

/-- A number is equal to itself unless it is undefined. -/
theorem any_equal_self {v : Value} {q : Quantity} (h : v.quantity? = some q) :
    v.quantity?.any (q.equal ·) = true ↔ q.isUndefined = false := by
  rw [h, Option.any_some]
  exact Quantity.equal_self_iff

theorem lookup_of_nodup {β : Type} {fields : List (String × β)} (h : (fields.map (·.1)).Nodup)
    {field : String × β} (hmem : field ∈ fields) : fields.lookup field.1 = some field.2 := by
  obtain ⟨before, behind, rfl⟩ := List.append_of_mem hmem
  rw [List.lookup_eq_some_iff]
  refine ⟨before, behind, rfl, fun other hother => ?_⟩
  rw [List.map_append, List.map_cons, List.nodup_append] at h
  have hne := h.2.2 other.1 (List.mem_map_of_mem hother) field.1 List.mem_cons_self
  simpa using hne.symm

mutual

/-- A value equals its copy exactly if there is no undefined number in it. -/
theorem equal_self_iff : ∀ {v : Value}, v.Proper → (v.equal v = true ↔ v.isDefined = true)
  | null, _ => by simp [equal, isDefined]
  | bool b, _ => by
    rw [equal, isDefined]
    exact (any_equal_self rfl).trans (iff_of_true rfl rfl)
  | int i, _ => by
    rw [equal, isDefined]
    exact (any_equal_self rfl).trans (iff_of_true rfl rfl)
  | float x, _ => by
    rw [equal, isDefined, Bool.not_eq_true']
    exact any_equal_self rfl
  | text s, _ => by simp [equal, isDefined]
  | list items, h => by
    rw [Proper] at h
    rw [equal, isDefined]
    exact equalItems_self_iff h
  | record fields, h => by
    rw [Proper] at h
    rw [equal, isDefined]
    simp only [decide_true, Bool.true_and]
    exact equalFields_self_iff h.2 fun field hfield => lookup_of_nodup h.1 hfield

theorem equalItems_self_iff : ∀ {items : List Value}, AllProper items →
    (equalItems items items = true ↔ areDefined items = true)
  | [], _ => by simp [equalItems, areDefined]
  | v :: rest, h => by
    rw [AllProper] at h
    rw [equalItems, areDefined, Bool.and_eq_true, Bool.and_eq_true, equal_self_iff h.1,
      equalItems_self_iff h.2]

/-- The fields of a record are looked up by their names, so that the rest of the record stands
    beside the fields that are still to be compared. -/
theorem equalFields_self_iff : ∀ {fields others : List (String × Value)}, FieldsProper fields →
    (∀ field ∈ fields, others.lookup field.1 = some field.2) →
    (equalFields fields others = true ↔ fieldsDefined fields = true)
  | [], _, _, _ => by simp [equalFields, fieldsDefined]
  | (name, v) :: rest, others, h, hothers => by
    rw [FieldsProper] at h
    have hfound : others.lookup name = some v := hothers (name, v) List.mem_cons_self
    have hrest := equalFields_self_iff h.2 fun field hfield =>
      hothers field (List.mem_cons_of_mem _ hfield)
    rw [equalFields, fieldsDefined, hfound, Bool.and_eq_true, Bool.and_eq_true, hrest]
    exact and_congr_left fun _ => equal_self_iff h.1

end

end Value

/-! ## What is told of values that are refused -/

/-- A default is among the values that can be written, whatever the machine. -/
theorem Value.isWritable_int {n : Nat} (h : n < Number.maxIntegerDigits) (depth : Nat) :
    (int n).isWritable depth = true := by
  rw [isWritable, Number.isWritable, Int.natAbs_natCast, decide_eq_true_eq]
  exact h.trans (Nat.lt_pow_self (by decide))

theorem Arguments.get_eq_or_mem (args : Arguments) (name : String) (default : Value) :
    args.get name default = default ∨ ∃ a ∈ args, args.get name default = a.2 := by
  unfold get
  cases hlookup : args.lookup name with
  | none => exact .inl rfl
  | some v =>
    obtain ⟨before, behind, rfl, -⟩ := List.lookup_eq_some_iff.1 hlookup
    exact .inr ⟨(name, v), List.mem_append_right _ List.mem_cons_self, rfl⟩

/-- An error of the configuration, the text of which writes out no values but arguments, or their
    defaults. -/
def Failure.Refuses (args : Arguments) (e : Failure) : Prop :=
  ∃ fault, e = .configuration fault ∧ ∀ v ∈ fault.named, ∃ name default,
    v = args.get name default ∧ ∀ depth, default.isWritable depth = true

namespace Failure.Refuses

variable {args : Arguments} {fault : ConfigurationFault} {e : Failure}

theorem of_unnamed (h : fault.named = []) : (configuration fault).Refuses args := by
  refine ⟨fault, rfl, fun v hv => ?_⟩
  rw [h] at hv
  cases hv

theorem of_named (name : String) {default : Value} (h : fault.named = [args.get name default])
    (hdefault : ∀ depth, default.isWritable depth = true) :
    (configuration fault).Refuses args := by
  refine ⟨fault, rfl, fun v hv => ⟨name, default, ?_, hdefault⟩⟩
  rw [h] at hv
  exact List.mem_singleton.1 hv

theorem isConfiguration (h : e.Refuses args) : e.IsConfiguration := by
  obtain ⟨fault, he, -⟩ := h
  exact ⟨fault, he⟩

/-- Only an argument can keep the text from being made. -/
theorem told [Machine] (h : e.Refuses args) :
    (∃ text, e.message = some text) ∨ ∃ a ∈ args, a.2.isWritable Machine.nesting = false := by
  obtain ⟨fault, rfl, hnamed⟩ := h
  by_cases hwritable : fault.named.all (·.isWritable Machine.nesting) = true
  · exact .inl ⟨fault.message, Option.filter_some_pos hwritable⟩
  · rw [List.all_eq_true] at hwritable
    push Not at hwritable
    obtain ⟨v, hv, hlong⟩ := hwritable
    obtain ⟨name, default, rfl, hdefault⟩ := hnamed v hv
    obtain heq | ⟨a, ha, heq⟩ := args.get_eq_or_mem name default
    · rw [heq] at hlong
      exact absurd (hdefault _) hlong
    · rw [heq] at hlong
      exact .inr ⟨a, ha, Bool.eq_false_iff.2 hlong⟩

/-- An integer of too many digits does. -/
example : (configuration (.notPositiveInteger "k" (.int (-(10 ^ 5000 : Nat))))).message = none := by
  decide +kernel

end Failure.Refuses

/-! ## The values that settings are made of -/

variable {α : Type} {registry : Registry α} {args : Arguments} {settings : Settings}

theorem positiveInteger?_eq_some {v : Value} {n : Nat} (hn : 0 < n) :
    positiveInteger? v = some ⟨n, hn⟩ ↔ v = .int n := by
  cases v with
  | int i =>
    rw [positiveInteger?, Value.int.injEq]
    split
    · rw [Option.some.injEq, Subtype.mk.injEq]
      omega
    · exact iff_of_false nofun (by omega)
  | _ => exact iff_of_false nofun nofun

theorem positiveInteger?_eq_none {v : Value} :
    positiveInteger? v = none ↔ ∀ n : Nat, 0 < n → v ≠ .int n := by
  constructor
  · rintro h n hn rfl
    have hread := (positiveInteger?_eq_some hn).2 (Eq.refl (Value.int n))
    rw [hread] at h
    cases h
  · intro h
    cases hread : positiveInteger? v with
    | none => rfl
    | some n => exact absurd ((positiveInteger?_eq_some n.2).1 hread) (h n.1 n.2)

/-- The value is that of a tolerance: null for none, or a number that is not below zero. -/
def Settings.IsTolerance (v : Value) : Option Quantity → Prop
  | none => v = .null
  | some q => v.quantity? = some q ∧ q.ltInt 0 = false

/-- The value is no tolerance, and cannot be compared with a number either. -/
def Settings.IsAlien (v : Value) : Prop := v ≠ .null ∧ v.quantity? = none

/-- Only texts name measures. -/
theorem Registry.text_of_get {name : Value} {m : Measure α} (h : registry.get name = .ok m) :
    ∃ s, name = .text s := by
  cases name with
  | text s => exact ⟨s, rfl⟩
  | _ => cases h

namespace Settings

theorem tolerance?_of_ne {v : Value} (h : v ≠ .null) : tolerance? v =
    match v.quantity? with
    | none => .error (.operand .wrongKind)
    | some q =>
      if q.ltInt 0 then .error (.configuration (.negativeTolerance v)) else .ok (some q) := by
  cases v with
  | null => exact absurd rfl h
  | _ => rfl

theorem IsTolerance.not_isAlien {v : Value} {t : Option Quantity} (h : IsTolerance v t) :
    ¬ IsAlien v := by
  intro halien
  cases t with
  | none => exact halien.1 h
  | some q => cases h.1.symm.trans halien.2

theorem IsTolerance.tolerance?_eq {v : Value} {t : Option Quantity} (h : IsTolerance v t) :
    tolerance? v = .ok t := by
  cases t with
  | none =>
    rw [show v = .null from h]
    rfl
  | some q =>
    have hne : v ≠ .null := by
      rintro rfl
      cases h.1
    rw [tolerance?_of_ne hne, h.1]
    simp only [h.2, Bool.false_eq_true, if_false]

theorem tolerance?_tells (v : Value) : Outcome.Ends (tolerance? v) (IsTolerance v)
    (fun e => IsAlien v ∧ e = .operand .wrongKind ∨
      ¬ IsAlien v ∧ e = .configuration (.negativeTolerance v)) := by
  by_cases hnull : v = .null
  · subst hnull
    exact rfl
  · rw [tolerance?_of_ne hnull]
    cases hq : v.quantity? with
    | none => exact .inl ⟨⟨hnull, hq⟩, rfl⟩
    | some q =>
      dsimp only
      split
      · refine .inr ⟨fun h => ?_, rfl⟩
        cases hq.symm.trans h.2
      · rename_i hq'
        exact ⟨hq, by simpa using hq'⟩

/-- The settings hold what the arguments say, or their defaults, and all of it is what settings can
    be made of. -/
structure HoldsOf (registry : Registry α) (args : Arguments) (settings : Settings) : Prop where
  k : args.get "k" (.int 2) = .int settings.k
  maxRounds : args.get "max_iterations" (.int 20) = .int settings.maxRounds
  seed : args.get "seed" (.int 0) = .int settings.seed
  tolerance : IsTolerance (args.get "tol" .null) settings.tolerance
  column : args.get "features_column" (.text "features") = settings.featuresColumn
  column_filled : settings.featuresColumn.isEmpty = false
  measure : args.get "distance_measure" (.text "euclidean") = .text settings.measure
  registered : ∃ m, registry.get (.text settings.measure) = .ok m
  policy : args.get "empty_cluster_policy" (.text "retain") = .text "retain"

/-- The tolerance is looked at, and cannot be compared. -/
structure Incomparable (args : Arguments) : Prop where
  k : ∃ n : Nat, 0 < n ∧ args.get "k" (.int 2) = .int n
  maxRounds : ∃ n : Nat, 0 < n ∧ args.get "max_iterations" (.int 20) = .int n
  seed : ∃ i, args.get "seed" (.int 0) = .int i
  alien : IsAlien (args.get "tol" .null)

theorem HoldsOf.ofArguments_eq (hknown : args.onlyKnown ["k", "max_iterations", "seed",
      "distance_measure", "features_column", "tol", "empty_cluster_policy"] = .ok ())
    (h : settings.HoldsOf registry args) : ofArguments registry args = .ok settings := by
  obtain ⟨m, hm⟩ := h.registered
  have hk := (positiveInteger?_eq_some settings.k_pos).2 h.k
  have hmaxRounds := (positiveInteger?_eq_some settings.maxRounds_pos).2 h.maxRounds
  unfold ofArguments
  simp only [hknown, hk, hmaxRounds, h.seed, h.tolerance.tolerance?_eq, h.column, h.column_filled,
    h.measure, hm, h.policy]
  rfl

theorem checkPolicy_tells (v : Value) : Outcome.Ends (checkPolicy v)
    (fun _ => v = .text "retain") (fun e => e = .configuration (.unknownPolicy v)) := by
  unfold checkPolicy
  split
  · exact rfl
  · exact rfl

/-- Settings are made of the values that they hold, or it is reported what is wrong, unless the
    tolerance cannot be compared. -/
theorem ofArguments_tells (hknown : args.onlyKnown ["k", "max_iterations", "seed",
      "distance_measure", "features_column", "tol", "empty_cluster_policy"] = .ok ()) :
    Outcome.Ends (ofArguments registry args) (fun settings => settings.HoldsOf registry args)
      (fun e => Incomparable args ∧ e = .operand .wrongKind ∨
        ¬ Incomparable args ∧ e.Refuses args) := by
  -- one check after the other: what is refused before the tolerance is not `Incomparable`, and
  -- what comes to the later checks has a tolerance that was compared
  unfold ofArguments
  simp only [hknown, Outcome.ends_bind, Outcome.ends_ok]
  cases hk : positiveInteger? (args.get "k" (.int 2)) with
  | none =>
    refine .inr ⟨fun h => ?_, .of_named "k" rfl (Value.isWritable_int (by decide))⟩
    obtain ⟨n, hn, hget⟩ := h.k
    exact positiveInteger?_eq_none.1 hk n hn hget
  | some clusters =>
    have hk := (positiveInteger?_eq_some clusters.2).1 hk
    cases hrounds : positiveInteger? (args.get "max_iterations" (.int 20)) with
    | none =>
      refine .inr ⟨fun h => ?_, .of_named "max_iterations" rfl
        (Value.isWritable_int (by decide))⟩
      obtain ⟨n, hn, hget⟩ := h.maxRounds
      exact positiveInteger?_eq_none.1 hrounds n hn hget
    | some rounds =>
      have hrounds := (positiveInteger?_eq_some rounds.2).1 hrounds
      dsimp only
      split
      · rename_i seed hseed
        rw [Outcome.ends_bind]
        refine (tolerance?_tells _).mono (fun tolerance htolerance => ?_) fun e he => ?_
        · have hcomparable : ¬ Incomparable args := fun h => htolerance.not_isAlien h.alien
          split
          · exact .inr ⟨hcomparable, .of_unnamed rfl⟩
          · rename_i hfilled
            rw [Outcome.ends_bind, Outcome.ends_discard]
            refine (registry.get_ends _).mono (fun m hm => ?_) fun e he =>
              .inr ⟨hcomparable, he ▸ .of_named "distance_measure" rfl fun _ => rfl⟩
            rw [Outcome.ends_bind]
            refine (checkPolicy_tells _).mono (fun _ hpolicy => ?_) fun e he =>
              .inr ⟨hcomparable, he ▸ .of_named "empty_cluster_policy" rfl fun _ => rfl⟩
            obtain ⟨name, hname⟩ := Registry.text_of_get hm
            rw [hname] at hm
            have hplain : (args.get "distance_measure" (.text "euclidean")).plain = name := by
              rw [hname]
              rfl
            exact ⟨hk, hrounds, hseed, htolerance, rfl, by simpa using hfilled, hplain ▸ hname,
              ⟨m, hplain ▸ hm⟩, hpolicy⟩
        · rcases he with ⟨halien, he⟩ | ⟨hcomparable, he⟩
          · exact .inl ⟨⟨⟨_, clusters.2, hk⟩, ⟨_, rounds.2, hrounds⟩, ⟨_, hseed⟩, halien⟩, he⟩
          · exact .inr ⟨fun h => hcomparable h.alien, he ▸ .of_named "tol" rfl fun _ => rfl⟩
      · rename_i hseed
        refine .inr ⟨fun h => ?_, .of_named "seed" rfl (Value.isWritable_int (by decide))⟩
        obtain ⟨i, hget⟩ := h.seed
        exact hseed i hget

/-! ## What is asked of settings -/

/-- The tolerance is none, or a number that compares as zero or more; the column is named by a text;
    the measure is known; and the settings ask for the same as their copy. -/
structure Sound (registry : Registry α) (settings : Settings) : Prop where
  tolerance : ∀ q, settings.tolerance = some q →
    q.compareInt 0 = some .eq ∨ q.compareInt 0 = some .gt
  column : ∃ name, settings.featuresColumn = .text name ∧ name ≠ ""
  registered : ∃ m, registry.get (.text settings.measure) = .ok m
  same : settings.same settings = true

/-- The tolerance is the undefined number. -/
def HasUndefinedTolerance (settings : Settings) : Prop :=
  ∃ x : Float, settings.tolerance = some (.float x) ∧ x.isNaN = true

theorem hasUndefinedTolerance_iff : settings.HasUndefinedTolerance ↔
    ∃ q, settings.tolerance = some q ∧ q.isUndefined = true := by
  constructor
  · rintro ⟨x, hx, hnan⟩
    exact ⟨.float x, hx, hnan⟩
  · rintro ⟨q, hq, hundefined⟩
    cases q with
    | float x => exact ⟨x, hq, hundefined⟩
    | flag b => cases hundefined
    | int i => cases hundefined

/-- Settings ask for the same as their copy, unless there is an undefined number in them. -/
theorem same_self_iff (hcolumn : settings.featuresColumn.Proper) : settings.same settings = true ↔
    ¬ settings.HasUndefinedTolerance ∧ settings.featuresColumn.isDefined = true := by
  have htolerance : sameTolerance settings.tolerance settings.tolerance = true ↔
      ¬ settings.HasUndefinedTolerance := by
    rw [hasUndefinedTolerance_iff]
    cases settings.tolerance with
    | none => simp [sameTolerance]
    | some q => simp [sameTolerance, Quantity.equal_self_iff]
  rw [← htolerance, ← Value.equal_self_iff hcolumn]
  simp only [same, decide_true, Bool.true_and, Bool.and_eq_true]
  exact and_comm

/-- Settings that have been made are sound exactly if their column is named by a text and their
    tolerance is no undefined number. -/
theorem HoldsOf.sound_iff (h : settings.HoldsOf registry args) : settings.Sound registry ↔
    (∃ name, settings.featuresColumn = .text name) ∧ ¬ settings.HasUndefinedTolerance := by
  constructor
  · intro hsound
    obtain ⟨name, hname, -⟩ := hsound.column
    have hproper : settings.featuresColumn.Proper := by
      rw [hname, Value.Proper]
      exact True.intro
    exact ⟨⟨name, hname⟩, ((same_self_iff hproper).1 hsound.same).1⟩
  · rintro ⟨⟨name, hname⟩, hdefined⟩
    have hproper : settings.featuresColumn.Proper := by
      rw [hname, Value.Proper]
      exact True.intro
    have hcolumn_defined : settings.featuresColumn.isDefined = true := by
      rw [hname, Value.isDefined]
    refine ⟨fun q hq => ?_, ⟨name, hname, ?_⟩, h.registered, (same_self_iff hproper).2
      ⟨hdefined, hcolumn_defined⟩⟩
    · -- the check only excludes what is below zero
      have hq' : q.ltInt 0 = false := by
        have htolerance := h.tolerance
        rw [hq] at htolerance
        exact htolerance.2
      rw [← Quantity.not_ltInt hq', ← Bool.not_eq_true]
      intro hundefined
      exact hdefined (hasUndefinedTolerance_iff.2 ⟨q, hq, hundefined⟩)
    · rintro rfl
      have hfilled := h.column_filled
      rw [hname] at hfilled
      cases hfilled

end Settings

/-- A snapshot that was stored under other settings is refused, and nothing has changed. -/
theorem Iteration.resume_refuses [Scalar α] {plan : Plan α} {given : Option (Snapshot α)}
    {z : Snapshot α} {s : Session α} (hz : askedFor plan given s.slot = .ok z)
    (hother : z.settings.same plan.settings = false) :
    resume plan given s
      = .error (.configuration (.otherSettings z.settings plan.settings)) s := by
  have hfor : snapshotFor plan given s = .ok z s := by
    rw [snapshotFor_eq, hz]
    rfl
  show EStateM.bind (snapshotFor plan given) _ s = _
  rw [EStateM.bind, hfor]
  simp only [hother]
  rfl

/-- Settings are made of raw values exactly if each of them passes its check: the number of clusters
    and that of rounds are integers above zero and no flags, the seed is an integer and no flag, the
    tolerance is null or a number that is not below zero, the column is not empty, the measure is
    registered, and the policy is the one that there is. Other values are reported as errors of the
    configuration, unless all that is checked before the tolerance is in order and the tolerance
    cannot be compared with a number; and the error has its text, unless one of the values is too
    long or nested too deeply to be written. Settings that are made are as they should be exactly if
    their column is a text and their tolerance is not the undefined number; and a checkpoint that
    was saved under them is taken up by a controller with the same settings, made again, exactly if
    there is no undefined number in them. -/
theorem raw_values_make_settings [Machine] [Scalar α] (registry : Registry α) {args : Arguments}
    (hknown : args.onlyKnown ["k", "max_iterations", "seed", "distance_measure", "features_column",
      "tol", "empty_cluster_policy"] = .ok ()) :
    (∀ settings, Settings.ofArguments registry args = .ok settings ↔
      settings.HoldsOf registry args) ∧
    (∀ e, Settings.ofArguments registry args = .error e →
      Settings.Incomparable args ∧ e = .operand .wrongKind ∨
        ¬ Settings.Incomparable args ∧ e.IsConfiguration ∧
          ((∃ text, e.message = some text) ∨
            ∃ a ∈ args, a.2.isWritable Machine.nesting = false)) ∧
    ∀ settings, Settings.ofArguments registry args = .ok settings →
      (settings.Sound registry ↔
        (∃ name, settings.featuresColumn = .text name) ∧ ¬ settings.HasUndefinedTolerance) ∧
      (settings.featuresColumn.Proper → ∀ (plan : Plan α) (given : Option (Snapshot α))
        (s : Session α) (z : Snapshot α), plan.settings = settings → z.settings = settings →
        Iteration.askedFor plan given s.slot = .ok z →
        (Iteration.TakenUp plan given s.slot z ↔
          ¬ settings.HasUndefinedTolerance ∧ settings.featuresColumn.isDefined = true) ∧
        (settings.HasUndefinedTolerance ∨ settings.featuresColumn.isDefined = false →
          Iteration.resume plan given s
            = .error (.configuration (.otherSettings settings settings)) s)) := by
  have htells := @Settings.ofArguments_tells _ registry _ hknown
  refine ⟨fun settings => ⟨htells.of_ok, fun h => h.ofArguments_eq hknown⟩,
    fun e he => (htells.of_error he).imp_right fun h => ⟨h.1, h.2.isConfiguration, h.2.told⟩,
    fun settings hmade => ⟨(htells.of_ok hmade).sound_iff, ?_⟩⟩
  rintro hproper plan given s z hplan hstored hz
  have hsame : z.settings.same plan.settings = true ↔
      ¬ settings.HasUndefinedTolerance ∧ settings.featuresColumn.isDefined = true := by
    rw [hplan, hstored, Settings.same_self_iff hproper]
  constructor
  · exact Iff.trans ⟨fun h => h.2, fun h => ⟨hz, h⟩⟩ hsame
  · intro hundefined
    have hother : z.settings.same plan.settings = false := by
      rw [← Bool.not_eq_true, hsame]
      rintro ⟨htolerance, hcolumn⟩
      rcases hundefined with h | h
      · exact htolerance h
      · rw [hcolumn] at h
        cases h
    rw [Iteration.resume_refuses hz hother, hplan, hstored]

namespace Settings

/-- Settings for three clusters, with the undefined number for a tolerance. -/
def undefinedTolerance : Settings where
  k := 3
  maxRounds := 20
  seed := 0
  measure := "euclidean"
  featuresColumn := .text "features"
  tolerance := some (.float (Float.ofBits 0x7FF8000000000000))
  k_pos := by decide
  maxRounds_pos := by decide

theorem undefinedTolerance_holdsOf : undefinedTolerance.HoldsOf (Registry.standard : Registry Float)
    [("k", .int 3), ("tol", .float (Float.ofBits 0x7FF8000000000000))] :=
  ⟨rfl, rfl, rfl, ⟨rfl, by decide⟩, rfl, by decide, rfl, ⟨_, rfl⟩, rfl⟩

end Settings

/-- The undefined number passes for a tolerance, and the settings are not as they should be. -/
theorem raw_values_make_settings_undefined :
    Settings.ofArguments (Registry.standard : Registry Float)
        [("k", .int 3), ("tol", .float (Float.ofBits 0x7FF8000000000000))]
      = .ok Settings.undefinedTolerance ∧
    ¬ Settings.undefinedTolerance.Sound (Registry.standard : Registry Float) := by
  have hknown : Arguments.onlyKnown
      [("k", .int 3), ("tol", .float (Float.ofBits 0x7FF8000000000000))]
      ["k", "max_iterations", "seed", "distance_measure", "features_column", "tol",
        "empty_cluster_policy"] = .ok () := rfl
  obtain ⟨hmade, -, hsound⟩ := raw_values_make_settings (Registry.standard : Registry Float) hknown
  have hmade := (hmade _).2 Settings.undefinedTolerance_holdsOf
  refine ⟨hmade, fun h => ?_⟩
  exact ((hsound _ hmade).1.1 h).2 ⟨_, rfl, by decide⟩

/-- A number passes for the name of a column. -/
theorem number_passes_for_column :
    ¬ Outcome.Ends (Settings.ofArguments (Registry.standard : Registry Float)
        [("features_column", .int 5)])
      (Settings.Sound (Registry.standard : Registry Float)) Failure.IsConfiguration := by
  intro h
  obtain ⟨name, hname, -⟩ := Settings.Sound.column h
  cases hname

end ClusterRounds
