/-
  ClusterRounds.Proofs.Writing

  What is written at a path is read there. Where a path leads is told by the directories on
  the way (`walk_append`), which a file that is written leaves as they are; so it leads to the
  same place again, and all paths that lead elsewhere find what they found before.
-/

import ClusterRounds.Files.Tree
import ClusterRounds.Proofs.Outcome

namespace ClusterRounds.Files.Tree

variable {t t' : Tree} {place at_ : List String} {c : Content} {location : String}

/-! ## Places -/

theorem isDirectory_congr (h : t'.directories = t.directories) (at_ : List String) :
    t'.isDirectory at_ = t.isDirectory at_ := by
  rw [isDirectory, isDirectory, h]

@[simp] theorem directories_put : (t.put at_ c).directories = t.directories := rfl

@[simp] theorem fileAt?_put : (t.put at_ c).fileAt? at_ = some c := by
  simp [fileAt?, put]

theorem fileAt?_put_of_ne (h : place ≠ at_) : (t.put at_ c).fileAt? place = t.fileAt? place := by
  have hne : (place == at_) = false := beq_eq_false_iff_ne.2 h
  simp only [fileAt?, put, List.lookup_cons, hne]
  induction t.files with
  | nil => rfl
  | cons f files ih =>
    obtain ⟨there, d⟩ := f
    by_cases hthere : there = at_
    · rw [List.filter_cons_of_neg (by simp [hthere]), ih, List.lookup_cons, hthere, hne]
    · rw [List.filter_cons_of_pos (by simp [hthere]), List.lookup_cons, List.lookup_cons, ih]

/-- What is written last is what stays. -/
theorem put_put (c' : Content) : (t.put at_ c).put at_ c' = t.put at_ c' := by
  simp [put, List.filter_filter]

/-! ## Ways -/

/-- Where a step from a directory leads, if its name is not too long. -/
def next? (here : List String) (step : String) : Option (List String) :=
  if step = ".." then some (above here)
  else if step = "." then some here
  else if Path.longestName < step.utf8ByteSize then none
  else some (here ++ [step])

theorem walk_cons {here : List String} (h : t.isDirectory here = true) (step : String)
    (rest : List String) : t.walk here (step :: rest) =
      match next? here step with
      | some place => t.walk place rest
      | none => (.unnameable, here) := by
  rw [walk, if_pos h, next?]
  by_cases hup : step = ".."
  · rw [if_pos hup, if_pos hup]
  · rw [if_neg hup, if_neg hup]
    by_cases hstay : step = "."
    · rw [if_pos hstay, if_pos hstay]
    · rw [if_neg hstay, if_neg hstay]
      split <;> rfl

/-- A way to a directory starts in one. -/
theorem walk_cons_eq_directory {here there : List String} {step : String} {rest : List String}
    (h : t.walk here (step :: rest) = (.directory, there)) :
    t.isDirectory here = true ∧
      ∃ place, next? here step = some place ∧ t.walk place rest = (.directory, there) := by
  cases hhere : t.isDirectory here with
  | false =>
    rw [walk, hhere, if_neg Bool.false_ne_true] at h
    split at h <;> cases h
  | true =>
    rw [walk_cons hhere] at h
    cases hnext : next? here step with
    | none =>
      rw [hnext] at h
      cases h
    | some place =>
      rw [hnext] at h
      exact ⟨rfl, place, rfl, h⟩

theorem walk_nil_eq_directory {here there : List String} :
    t.walk here [] = (.directory, there) ↔ t.isDirectory here = true ∧ here = there := by
  rw [walk]
  split
  · simp [*]
  · cases hfile : t.fileAt? here <;> simp [*]

/-- Steps that lead to a directory can be gone before others. -/
theorem walk_append : ∀ {xs here there : List String}, t.walk here xs = (.directory, there) →
    ∀ ys, t.walk here (xs ++ ys) = t.walk there ys
  | [], here, there, h, ys => by
    rw [List.nil_append, (walk_nil_eq_directory.1 h).2]
  | step :: rest, here, there, h, ys => by
    obtain ⟨hhere, place, hnext, h⟩ := walk_cons_eq_directory h
    rw [List.cons_append, walk_cons hhere, hnext]
    exact walk_append h ys

/-- The directories alone tell whether steps lead to one. -/
theorem walk_congr (hdirs : t'.directories = t.directories) : ∀ {xs here there : List String},
    t.walk here xs = (.directory, there) → t'.walk here xs = (.directory, there)
  | [], here, there, h => by
    rw [walk_nil_eq_directory] at h ⊢
    rwa [isDirectory_congr hdirs]
  | step :: rest, here, there, h => by
    obtain ⟨hhere, place, hnext, h⟩ := walk_cons_eq_directory h
    rw [walk_cons ((isDirectory_congr hdirs here).trans hhere), hnext]
    exact walk_congr hdirs h

theorem isDirectory_of_walk {xs here there : List String}
    (h : t.walk here xs = (.directory, there)) : t.isDirectory there = true := by
  have hwalk := walk_append h []
  rw [List.append_nil, h] at hwalk
  exact (walk_nil_eq_directory.1 hwalk.symm).1

/-! ## Writing -/

/-- A file at the location can be written, and where it comes to stand: the last step leads there from
    a directory. -/
structure WritableAt (t : Tree) (location : String) (at_ : List String) : Prop where
  path : Path.faultOf? location = none
  plain : location.endsWith "/" = false
  /-- The way there but for its last step. -/
  way : ∃ xs step there, Path.stepsOf location = xs ++ [step] ∧
    t.walk [] xs = (.directory, there) ∧ next? there step = some at_
  vacant : t.isDirectory at_ = false

/-- Where a way ends that does not end in a directory. -/
theorem walk_nil_of_vacant (h : t.isDirectory at_ = false) :
    t.walk at_ [] = (((t.fileAt? at_).map Found.file).getD .absent, at_) := by
  rw [walk, h, if_neg Bool.false_ne_true]

theorem WritableAt.find_eq (h : t.WritableAt location at_) :
    t.find location = (((t.fileAt? at_).map Found.file).getD .absent, at_) := by
  obtain ⟨xs, step, there, hsteps, hwalk, hnext⟩ := h.way
  rw [find, hsteps, walk_append hwalk, walk_cons (isDirectory_of_walk hwalk), hnext]
  exact walk_nil_of_vacant h.vacant

theorem directoryOf_eq_ok {steps here : List String} :
    t.directoryOf location steps = .ok here ↔ t.walk [] steps.dropLast = (.directory, here) := by
  unfold directoryOf
  split <;> simp [*]

/-- Where nothing or a file is found, in a directory, a file can be written. -/
theorem writableAt_of_find {found : Found} {there : List String}
    (hpath : Path.faultOf? location = none) (hplain : location.endsWith "/" = false)
    (hwalk : t.walk [] (Path.stepsOf location).dropLast = (.directory, there))
    (hfind : t.find location = (found, at_)) (hfound : found = .absent ∨ ∃ c, found = .file c) :
    t.WritableAt location at_ := by
  have hdirectory : found ≠ .directory := by
    rintro rfl
    simp at hfound
  rcases List.eq_nil_or_concat' (Path.stepsOf location) with hnil | ⟨xs, step, hsteps⟩
  · -- without steps it is the directory itself that is found
    rw [hnil, List.dropLast_nil] at hwalk
    rw [find, hnil, hwalk] at hfind
    exact absurd (Prod.mk.inj hfind).1.symm hdirectory
  · rw [hsteps, List.dropLast_concat] at hwalk
    rw [find, hsteps, walk_append hwalk, walk_cons (isDirectory_of_walk hwalk)] at hfind
    cases hnext : next? there step with
    | none =>
      rw [hnext] at hfind
      obtain ⟨rfl, -⟩ := Prod.mk.inj hfind
      simp at hfound
    | some place =>
      rw [hnext] at hfind
      dsimp only at hfind
      cases hvacant : t.isDirectory place with
      | true =>
        rw [walk_nil_eq_directory.2 ⟨hvacant, rfl⟩] at hfind
        exact absurd (Prod.mk.inj hfind).1.symm hdirectory
      | false =>
        rw [walk_nil_of_vacant hvacant] at hfind
        obtain rfl := (Prod.mk.inj hfind).2
        exact ⟨hpath, hplain, ⟨xs, step, there, hsteps, hwalk, hnext⟩, hvacant⟩

/-- A file is written, whatever it holds, exactly if its location is writable. -/
theorem write_eq_ok : t.write location c = .ok t' ↔
    ∃ at_, t.WritableAt location at_ ∧ t.put at_ c = t' := by
  unfold write
  constructor
  · intro h
    split at h
    · cases h
    rename_i hpath
    dsimp only at h
    cases hplain : location.endsWith "/" with
    | true =>
      rw [hplain] at h
      obtain ⟨_, -, h⟩ := bind_eq_ok.1 h
      cases h
    | false =>
      rw [hplain, if_neg Bool.false_ne_true] at h
      obtain ⟨_, hdirectory, h⟩ := bind_eq_ok.1 h
      obtain ⟨there, hdirectory, -⟩ := map_eq_ok.1 hdirectory
      have hwalk := directoryOf_eq_ok.1 hdirectory
      rw [if_neg Bool.false_ne_true] at h
      -- only where a file or nothing is found writing does not fail
      split at h
      · cases h
      · cases h
      · cases h
      · exact ⟨_, writableAt_of_find hpath hplain hwalk ‹_› (.inr ⟨_, rfl⟩), Except.ok.inj h⟩
      · exact ⟨_, writableAt_of_find hpath hplain hwalk ‹_› (.inl rfl), Except.ok.inj h⟩
  · rintro ⟨at_, hwritable, rfl⟩
    obtain ⟨xs, step, there, hsteps, hwalk, -⟩ := hwritable.way
    have hdirectory : t.directoryOf location (Path.stepsOf location) = .ok there := by
      rw [directoryOf_eq_ok, hsteps, List.dropLast_concat, hwalk]
    rw [hwritable.path]
    dsimp only
    rw [hwritable.plain, if_neg Bool.false_ne_true, hdirectory, hwritable.find_eq]
    cases t.fileAt? at_ <;> rfl

theorem WritableAt.congr (h : t.WritableAt location at_) (hdirs : t'.directories = t.directories) :
    t'.WritableAt location at_ := by
  obtain ⟨xs, step, there, hsteps, hwalk, hnext⟩ := h.way
  exact ⟨h.path, h.plain, ⟨xs, step, there, hsteps, walk_congr hdirs hwalk, hnext⟩,
    (isDirectory_congr hdirs at_).trans h.vacant⟩

theorem WritableAt.find_put (h : t.WritableAt location at_) :
    (t.put at_ c).find location = (.file c, at_) := by
  rw [(h.congr directories_put).find_eq, fileAt?_put]
  rfl

theorem WritableAt.look_put (h : t.WritableAt location at_) :
    (t.put at_ c).look location = .ok (.file c) := by
  rw [look, h.path, h.find_put]

/-- What is written is read. -/
theorem WritableAt.read_put (h : t.WritableAt location at_) :
    (t.put at_ c).read location = .ok c := by
  rw [read, h.look_put]
  rfl

/-- At a location that leads elsewhere is what was there before. -/
theorem read_put_of_ne {front there : List String} {step : String}
    (hsteps : Path.stepsOf location = front ++ [step])
    (hwalk : t.walk [] front = (.directory, there)) (hplace : next? there step ≠ some at_) :
    (t.put at_ c).read location = t.read location := by
  have hwalk' : (t.put at_ c).walk [] front = (.directory, there) :=
    walk_congr directories_put hwalk
  have hfind : (t.put at_ c).find location = t.find location := by
    rw [find, find, hsteps, walk_append hwalk, walk_append hwalk',
      walk_cons (isDirectory_of_walk hwalk), walk_cons (isDirectory_of_walk hwalk')]
    cases hnext : next? there step with
    | none => rfl
    | some place =>
      -- the ways are the same, and the place at their end is another one
      have hne : place ≠ at_ := fun heq => hplace (hnext.trans (congrArg some heq))
      dsimp only
      rw [walk, walk, isDirectory_congr directories_put, fileAt?_put_of_ne hne]
  rw [read, read, look, look, hfind]

theorem WritableAt.isOccupied_put (h : t.WritableAt location at_) :
    (t.put at_ c).isOccupied location = true := by
  rw [isOccupied, isThere, h.look_put]

/-- Where nothing is there is nothing to read. -/
theorem exists_read_eq_error (h : t.isOccupied location = false) :
    ∃ fault, t.read location = .error fault := by
  unfold isOccupied isThere at h
  unfold read
  cases hlook : t.look location with
  | error fault => exact ⟨fault, rfl⟩
  | ok found =>
    rw [hlook] at h
    cases found with
    | directory | file _ => cases h
    | absent | obstructed | unnameable => exact ⟨_, rfl⟩

end ClusterRounds.Files.Tree
