/-
  ClusterRounds.Proofs.Arguments

  What is known about options that have been read. Each is one that the mode knows, its
  value is of the kind that the option takes, and those that are required are there.
-/

import ClusterRounds.CommandLine.Options
import ClusterRounds.Proofs.Outcome

namespace ClusterRounds.CommandLine

/-- Is the value of the kind that an option takes? -/
def Taking.Suits : Taking → Value → Prop
  | .nothing, v => v = .bool true
  | .help, _ => False
  | .text, v => ∃ s, v = .text s
  | .integer, v => ∃ i, v = .int i
  | .float, v => ∃ x, v = .float x

/-- Every option is one that the mode knows, with a value of its kind. -/
def Typed (known : Known) (options : List (String × Value)) : Prop :=
  ∀ o ∈ options, ∃ taking, (o.1, taking) ∈ known ∧ taking.Suits o.2

/-- An argument that is an option is one that the mode knows. -/
def Sorted.IsKnown (known : Known) : Sorted → Prop
  | .option name taking _ => (name, taking) ∈ known
  | _ => True

/-- An argument is sorted as an option that the mode knows, or as a value that is itself. -/
def Sorted.StandsFor (known : Known) (s : String) : Sorted → Prop
  | .value v => v = s
  | o => o.IsKnown known

variable {known : Known}

theorem Sorted.StandsFor.isKnown {s : String} {o : Sorted} (h : o.StandsFor known s) :
    o.IsKnown known := by
  cases o with
  | value v => exact True.intro
  | option | unknown | separator => exact h

theorem valueOf_suits {taking : Taking} {s : String} {v : Value} (h : valueOf taking s = some v) :
    taking.Suits v := by
  cases taking with
  | nothing | help => cases h
  | text =>
    cases h
    exact ⟨s, rfl⟩
  | integer =>
    obtain ⟨i, -, rfl⟩ := Option.map_eq_some_iff.1 h
    exact ⟨i, rfl⟩
  | float =>
    obtain ⟨x, -, rfl⟩ := Option.map_eq_some_iff.1 h
    exact ⟨x, rfl⟩

theorem mem_of_lookup {β : Type} {xs : List (String × β)} {name : String} {b : β}
    (h : xs.lookup name = some b) : (name, b) ∈ xs := by
  obtain ⟨before, after, rfl, -⟩ := List.lookup_eq_some_iff.1 h
  exact List.mem_append_right _ List.mem_cons_self

/-! ## Sorting -/

theorem candidates_standFor (s : String) : ∀ o ∈ candidates known s, o.StandsFor known s := by
  intro o ho
  unfold candidates at ho
  split at ho
  · obtain ⟨option, hoption, rfl⟩ := List.mem_map.1 ho
    exact (List.mem_filter.1 hoption).1
  · obtain ⟨option, hoption, rfl⟩ := List.mem_map.1 ho
    exact (List.mem_filter.1 hoption).1
  · cases ho

theorem sort_standsFor {s : String} {o : Sorted} (h : sort? known s = some o) :
    o.StandsFor known s := by
  unfold sort? at h
  split at h
  · cases h
    exact rfl
  · split at h
    · rename_i taking hlookup
      cases h
      exact mem_of_lookup hlookup
    · dsimp only at h
      split at h
      · rename_i exact_ hexact
        cases h
        obtain ⟨⟨name, value⟩, -, hname⟩ := Option.bind_eq_some_iff.1 hexact
        obtain ⟨taking, hlookup, rfl⟩ := Option.map_eq_some_iff.1 hname
        exact mem_of_lookup hlookup
      · split at h
        · rename_i sole hsole
          cases h
          exact candidates_standFor s o (by rw [hsole]; exact List.mem_singleton_self _)
        · split at h <;> cases h
          · exact rfl
          · exact True.intro
        · cases h

theorem sortAll_isKnown : ∀ {args : List String} {sorted : List Sorted},
    sortAll known args = some sorted → ∀ o ∈ sorted, o.IsKnown known
  | [], _, h, o, ho => by
    cases h
    cases ho
  | s :: rest, sorted, h, o, ho => by
    unfold sortAll at h
    split at h
    · cases h
      rcases List.mem_cons.1 ho with rfl | ho
      · exact True.intro
      · obtain ⟨_, -, rfl⟩ := List.mem_map.1 ho
        exact True.intro
    · obtain ⟨first, hfirst, h⟩ := Option.bind_eq_some_iff.1 h
      obtain ⟨others, hothers, h⟩ := Option.bind_eq_some_iff.1 h
      cases h
      rcases List.mem_cons.1 ho with rfl | ho
      · exact (sort_standsFor hfirst).isKnown
      · exact sortAll_isKnown hothers o ho

/-! ## Taking -/

theorem Typed.cons {options : List (String × Value)} (h : Typed known options) {name : String}
    {taking : Taking} {v : Value} (hknown : (name, taking) ∈ known) (hv : taking.Suits v) :
    Typed known ((name, v) :: options) := by
  intro o ho
  rcases List.mem_cons.1 ho with rfl | ho
  · exact ⟨taking, hknown, hv⟩
  · exact h o ho

/-- What is set by sorted arguments, one after the other. -/
theorem take_typed {sorted : List Sorted} (hknown : ∀ o ∈ sorted, o.IsKnown known)
    {set : List (String × Value)} {extra : Bool} (h : take sorted = .ok (set, extra)) :
    Typed known set := by
  fun_induction take sorted generalizing set extra
  case case1 | case4 =>
    cases h
    exact fun _ ho => nomatch ho
  case case2 ih | case3 ih =>
    -- what nobody takes sets nothing
    obtain ⟨⟨_, _⟩, hrest, h⟩ := bind_eq_ok.1 h
    cases pure_eq_ok.1 h
    exact ih (fun o ho => hknown o (List.mem_cons_of_mem _ ho)) hrest
  case case6 name rest ih =>
    obtain ⟨⟨_, _⟩, hrest, h⟩ := bind_eq_ok.1 h
    cases pure_eq_ok.1 h
    exact (ih (fun o ho => hknown o (List.mem_cons_of_mem _ ho)) hrest).cons
      (hknown _ List.mem_cons_self) rfl
  case case9 name taking text rest _ _ v hv ih =>
    obtain ⟨⟨_, _⟩, hrest, h⟩ := bind_eq_ok.1 h
    cases pure_eq_ok.1 h
    exact (ih (fun o ho => hknown o (List.mem_cons_of_mem _ ho)) hrest).cons
      (hknown _ List.mem_cons_self) (valueOf_suits hv)
  case case11 name taking text rest _ _ v hv ih =>
    obtain ⟨⟨_, _⟩, hrest, h⟩ := bind_eq_ok.1 h
    cases pure_eq_ok.1 h
    exact (ih (fun o ho => hknown o (by simp [ho])) hrest).cons
      (hknown _ List.mem_cons_self) (valueOf_suits hv)
  -- the others are not read to the end
  all_goals cases h

/-! ## Reading -/

/-- Options that have been read are of the kinds that the mode knows, and those that are required
    are among them. -/
theorem read_typed {required args : List String} {options : List (String × Value)}
    (h : read known required args = .ok options) :
    Typed known options ∧ ∀ name ∈ required, ∃ v, options.lookup name = some v := by
  unfold read at h
  split at h
  · rename_i sorted hsorted
    obtain ⟨⟨set, extra⟩, htake, h⟩ := bind_eq_ok.1 h
    dsimp only at h
    split at h
    · cases h
    · rename_i hall
      cases pure_eq_ok.1 h
      have htyped := take_typed (sortAll_isKnown hsorted) htake
      refine ⟨fun o ho => htyped o (List.mem_reverse.1 ho), fun name hname => ?_⟩
      rw [Bool.not_eq_true, Bool.or_eq_false_iff, Bool.not_eq_false', List.all_eq_true] at hall
      obtain ⟨o, ho, heq⟩ := List.any_eq_true.1 (hall.2 name hname)
      cases hlookup : set.reverse.lookup name with
      | some v => exact ⟨v, rfl⟩
      | none =>
        have hother := List.lookup_eq_none_iff.1 hlookup o (List.mem_reverse.2 ho)
        simp [of_decide_eq_true heq] at hother
  · cases h

/-- The value of an option is of the kind that the mode knows it to take. -/
theorem Typed.suits {options : List (String × Value)} (h : Typed known options) {name : String}
    {v : Value} (hv : options.lookup name = some v) {taking : Taking}
    (honly : ∀ t, (name, t) ∈ known → t = taking) : taking.Suits v := by
  obtain ⟨t, hknown, hsuits⟩ := h _ (mem_of_lookup hv)
  exact honly t hknown ▸ hsuits

end ClusterRounds.CommandLine
