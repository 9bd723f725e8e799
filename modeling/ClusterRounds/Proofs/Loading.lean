/-
  ClusterRounds.Proofs.Loading

  How points fail to load. A failure that is taken to be one of the input file is reported
  as such, and others are reported under a name of their own; one that is neither is
  `Stray`. Of a file of records it can be told exactly which ones lead to that: a line on
  which values are nested too deeply, or else a first record that is `Alien`, one that is
  of a wrong kind or has such a value in its field.
-/

import ClusterRounds.CommandLine.Run
import ClusterRounds.Proofs.Outcome

namespace ClusterRounds

/-- The failure is neither taken to be one of the input file nor reported under a name of its own. -/
def Failure.Stray (f : Failure) : Prop :=
  CommandLine.isDueToFile f = false ∧ CommandLine.title? f = none

theorem Failure.stray_operand {fault : OperandFault} :
    (Failure.operand fault).Stray ↔ fault ∈ CommandLine.gravest := by
  simp [Stray, CommandLine.isDueToFile, CommandLine.title?]

theorem Failure.not_stray_configuration (fault : ConfigurationFault) :
    ¬ (Failure.configuration fault).Stray := fun h => nomatch h.2

theorem Failure.not_stray_file (fault : FileFault) : ¬ (Failure.file fault).Stray :=
  fun h => nomatch h.1

namespace Records

/-! ## Alien records -/

/-- The record is of a kind that the program cannot ask for its field, or its field holds what cannot
    be taken for coordinates by its kind; with the fault that this comes to. -/
inductive Alien (column : String) : Value → OperandFault → Prop
  /-- It is a number, a flag, or nothing. -/
  | bare {record : Value} (bare : record = .null ∨ ∃ q, record.quantity? = some q) :
      Alien column record .wrongKind
  /-- It is a text, and the name of the field is a part of it. -/
  | text {s : String} (part : isPart column.toList s.toList = true) : Alien column (.text s) .wrongKind
  /-- It is a list, and the name of the field is one of its items. -/
  | list {items : List Value} (item : items.any (·.equal (.text column)) = true) :
      Alien column (.list items) .wrongKind
  /-- Its field holds a record among the coordinates, or a number beyond the doubles. -/
  | field {fields : List (String × Value)} {v : Value} {fault : OperandFault}
      (lookup : fields.lookup column = some v) (vector : vector v = .error fault)
      (grave : fault ∈ CommandLine.gravest) : Alien column (.record fields) fault

variable {column : String} {record : Value} {f : Failure}

theorem Alien.grave {fault : OperandFault} (h : Alien column record fault) :
    fault ∈ CommandLine.gravest := by
  cases h with
  | field _ _ grave => exact grave
  | _ => decide

/-- To ask whether a record has a field fails only on one that is bare. -/
theorem has_eq_error {fault : OperandFault} :
    has record (.text column) = .error fault ↔
      (record = .null ∨ ∃ q, record.quantity? = some q) ∧ fault = .wrongKind := by
  cases record <;> simp [has, Value.quantity?, eq_comm]

/-- An alien record cannot be asked for its field, or has it. -/
theorem Alien.has_cases {fault : OperandFault} (h : Alien column record fault) :
    has record (.text column) = .error .wrongKind ∧ fault = .wrongKind ∨
      has record (.text column) = .ok true := by
  cases h with
  | bare hbare => exact .inl ⟨has_eq_error.2 ⟨hbare, rfl⟩, rfl⟩
  | text hpart => exact .inr (by simp [has, hpart])
  | list hitem => exact .inr (by simp [has, hitem])
  | field hlookup _ _ =>
    obtain ⟨before, after, rfl, -⟩ := List.lookup_eq_some_iff.1 hlookup
    exact .inr (by simp [has])

/-- A record that has a field and yet no vector for a grave fault is alien. -/
theorem vector_eq_error {fault : OperandFault} (hhas : has record (.text column) = .ok true)
    (hgrave : fault ∈ CommandLine.gravest) :
    (valueOf record (.text column) >>= vector) = .error fault ↔ Alien column record fault := by
  have hwrong {x y : OperandFault} : (Except.error x : Except OperandFault (List Float)) = .error y
      ↔ y = x := by rw [Except.error.injEq, eq_comm]
  cases record with
  | null | bool b | int n | float x => cases hhas
  | text s =>
    show Except.error OperandFault.wrongKind = .error fault ↔ _
    rw [hwrong]
    constructor
    · rintro rfl
      exact .text (by simpa [has] using hhas)
    · rintro ⟨⟩ <;> rfl
  | list items =>
    show Except.error OperandFault.wrongKind = .error fault ↔ _
    rw [hwrong]
    constructor
    · rintro rfl
      exact .list (by simpa [has] using hhas)
    · rintro ⟨⟩ <;> rfl
  | record fields =>
    cases hlookup : fields.lookup column with
    | none =>
      -- a record that has the field has a value for it
      obtain ⟨o, ho, heq⟩ : ∃ o ∈ fields, o.1 = column := by simpa [has] using hhas
      simpa [heq] using List.lookup_eq_none_iff.1 hlookup o ho
    | some v =>
      have hvalue : valueOf (.record fields) (.text column) = .ok v := by simp [valueOf, hlookup]
      rw [hvalue]
      refine ⟨fun hvector => .field hlookup hvector hgrave, fun halien => ?_⟩
      cases halien with
      | bare hbare => simp [Value.quantity?] at hbare
      | field hlookup' hvector _ =>
        rw [hlookup, Option.some.injEq] at hlookup'
        exact hlookup' ▸ hvector

/-- A record that is alien is so wherever it stands, and no other record leads to a stray failure. -/
theorem vectorOf_eq_stray (width : Option Nat) (i : Nat) (h : f.Stray) :
    vectorOf (.text column) width i record = .error f ↔
      ∃ fault, Alien column record fault ∧ f = .operand fault := by
  unfold vectorOf
  cases hhas : has record (.text column) with
  | error fault =>
    obtain ⟨hbare, rfl⟩ := has_eq_error.1 hhas
    show Except.error (Failure.operand .wrongKind) = .error f ↔ _
    rw [Except.error.injEq]
    constructor
    · rintro rfl
      exact ⟨_, .bare hbare, rfl⟩
    · rintro ⟨fault, halien, rfl⟩
      rcases halien.has_cases with ⟨-, rfl⟩ | htrue
      · rfl
      · rw [hhas] at htrue
        cases htrue
  | ok there =>
    cases there with
    | false =>
      show Except.error (Failure.configuration (.noField i (.text column))) = .error f ↔ _
      rw [Except.error.injEq]
      refine iff_of_false (fun heq => Failure.not_stray_configuration _ (heq ▸ h)) ?_
      rintro ⟨fault, halien, -⟩
      rcases halien.has_cases with ⟨herror, -⟩ | htrue
      · rw [hhas] at herror
        cases herror
      · rw [hhas] at htrue
        cases htrue
    | true =>
      show (Outcome.ofOperands (valueOf record (.text column) >>= vector) >>= _) = .error f ↔ _
      rw [bind_eq_error]
      constructor
      · rintro (hfails | ⟨v, -, hfails⟩)
        · obtain ⟨fault, hfault, rfl⟩ := ofOperands_eq_error.1 hfails
          exact ⟨fault, (vector_eq_error hhas (Failure.stray_operand.1 h)).1 hfault, rfl⟩
        · -- a vector of another width is reported
          split at hfails
          · split at hfails
            · cases hfails
              exact absurd h (Failure.not_stray_configuration _)
            · cases hfails
          · cases hfails
      · rintro ⟨fault, halien, rfl⟩
        exact .inl (ofOperands_eq_error.2 ⟨fault, (vector_eq_error hhas halien.grave).2 halien, rfl⟩)

/-! ## All records -/

/-- Records lead to a stray failure exactly if one of them is alien and those before it have
    vectors of one width. -/
theorem vectorsFrom_eq_stray (h : f.Stray) : ∀ (records : List Value) (width : Option Nat) (i : Nat),
    vectorsFrom (.text column) width i records = .error f ↔
      ∃ before record after vectors fault, records = before ++ record :: after ∧
        vectorsFrom (.text column) width i before = .ok vectors ∧ Alien column record fault ∧
        f = .operand fault
  | [], width, i => by
    refine iff_of_false (fun hfails => nomatch hfails) ?_
    rintro ⟨before, record, after, _, _, hall, -⟩
    simp at hall
  | first :: rest, width, i => by
    unfold vectorsFrom
    rw [bind_eq_error, vectorOf_eq_stray width i h]
    constructor
    · rintro (⟨fault, halien, hf⟩ | ⟨v, hv, hfails⟩)
      · exact ⟨[], first, rest, [], fault, rfl, rfl, halien, hf⟩
      · rcases bind_eq_error.1 hfails with hrest | ⟨_, -, hfails⟩
        · obtain ⟨before, record, after, vectors, fault, rfl, hbefore, halien, hf⟩ :=
            (vectorsFrom_eq_stray h rest _ (i + 1)).1 hrest
          refine ⟨first :: before, record, after, v :: vectors, fault, rfl, ?_, halien, hf⟩
          exact bind_eq_ok.2 ⟨v, hv, bind_eq_ok.2 ⟨vectors, hbefore, rfl⟩⟩
        · cases hfails
    · rintro ⟨before, alien, after, vectors, fault, hall, hbefore, halien, hf⟩
      cases before with
      | nil =>
        cases hall
        exact .inl ⟨fault, halien, hf⟩
      | cons _ before =>
        cases hall
        obtain ⟨v, hv, hbefore⟩ := bind_eq_ok.1 hbefore
        obtain ⟨rest, hrest, -⟩ := bind_eq_ok.1 hbefore
        refine .inr ⟨v, hv, bind_eq_error.2 (.inl ?_)⟩
        exact (vectorsFrom_eq_stray h _ _ (i + 1)).2
          ⟨before, alien, after, rest, fault, rfl, hrest, halien, hf⟩

/-- So it is with their points, as all else that fails in making them is reported. -/
theorem points_eq_stray (h : f.Stray) {records : List Value} :
    points records (.text column) = .error f ↔
      ∃ before record after vectors fault, records = before ++ record :: after ∧
        vectorsFrom (.text column) none 0 before = .ok vectors ∧ Alien column record fault ∧
        f = .operand fault := by
  rw [points, bind_eq_error, vectorsFrom_eq_stray h]
  refine or_iff_left ?_
  rintro ⟨vectors, -, hfails⟩
  split at hfails <;> cases hfails

end Records

/-! ## Steps of loading -/

namespace Load

open Files

variable {f : Failure}

/-- The only stray failure of reading a line is that its values are nested too deeply. -/
theorem record_eq_stray (h : f.Stray) {line : List Char} (hfails : record line = .error f) :
    f = .content .deepNesting := by
  unfold record at hfails
  split at hfails
  · cases hfails
  · cases hfails
    exact absurd h.1 (by decide)
  · cases hfails
    exact absurd (Failure.stray_operand.1 h) (by decide)
  · cases hfails
    rfl

theorem records_eq_stray (h : f.Stray) {lines : List (List Char)}
    (hfails : records lines = .error f) : f = .content .deepNesting := by
  obtain ⟨line, -, hline⟩ := mapM_eq_error hfails
  exact record_eq_stray h hline

/-- That a file has no lines is a failure of the file. -/
theorem not_stray_ofContent {c : Content}
    (hfails : (Lines.ofContent c).mapError Failure.content = .error f) : ¬ f.Stray := by
  suffices hf : f = .content .notUtf8 by
    rw [hf]
    exact fun h => absurd h.1 (by decide)
  obtain ⟨fault, hfault, rfl⟩ := mapError_eq_error.1 hfails
  rcases bind_eq_error.1 hfault with htext | ⟨_, -, hfails⟩
  · cases c with
    | text s => cases htext
    | bytes b =>
      simp only [Lines.textOf] at htext
      cases hs : String.fromUTF8? b with
      | none =>
        rw [hs] at htext
        cases htext
        rfl
      | some s =>
        rw [hs] at htext
        cases htext
    | array _ _ | checkpoint _ | foreign =>
      cases htext
      rfl
  · cases hfails

/-- Points are a matrix, or else that is reported. -/
theorem asMatrix_ends (p : Path) (t : Tensor Float) :
    (∃ m n w, asMatrix p t = .ok m ∧ m.shape = [n, w]) ∨ ∃ fault, asMatrix p t =
      .error (.configuration fault) := by
  unfold asMatrix
  split
  · rename_i n h
    exact .inl ⟨_, n, 1, rfl, rfl⟩
  · rename_i n w h
    exact .inl ⟨t, n, w, rfl, h⟩
  · exact .inr ⟨_, rfl⟩

theorem shape_points [Machine] {tree : Tree} {p : Path} {column : Value} {t : Tensor Float}
    (h : points tree p column = .ok t) : ∃ n w, t.shape = [n, w] := by
  obtain ⟨t', -, ht⟩ := bind_eq_ok.1 h
  rcases asMatrix_ends p t' with ⟨m, n, w, hm, hshape⟩ | ⟨fault, hfault⟩
  · rw [hm, Except.ok.injEq] at ht
    exact ⟨n, w, ht ▸ hshape⟩
  · rw [hfault] at ht
    cases ht

/-- The numbers of a table are read, or what they are is a failure of the file. -/
theorem not_stray_ofLines {lines : List (List Char)}
    (hfails : Outcome.ofOperands (Table.ofLines lines) = .error f) : ¬ f.Stray := by
  obtain ⟨fault, hfault, rfl⟩ := ofOperands_eq_error.1 hfails
  rw [Failure.stray_operand]
  rcases bind_eq_error.1 hfault with hrows | ⟨rows, -, hfault⟩
  · obtain ⟨line, -, hrow⟩ := mapM_eq_error hrows
    obtain ⟨field, -, hfield⟩ := mapM_eq_error hrow
    cases hnumber : Number.plainFloat? field with
    | none =>
      rw [hnumber] at hfield
      cases hfield
      decide
    | some x =>
      rw [hnumber] at hfield
      cases hfield
  · dsimp only at hfault
    split at hfault
    · cases hfault
    · split at hfault
      · cases hfault
      · cases hfault
        decide

/-! ## Whole files -/

/-- Why a file leads to a stray failure. -/
inductive AlienFile [Machine] (tree : Tree) (p : Path) (column : String) : Failure → Prop
  /-- It is to hold a stored array, and does not. -/
  | array {c : Content} {f : Failure} (form : formOf p = .array) (read : tree.read p.text = .ok c)
      (array : storedArray c = .error f) : AlienFile tree p column f
  /-- It holds records, and the values of a line are nested too deeply. -/
  | deep {c : Content} {lines : List (List Char)} (form : formOf p = .records)
      (read : tree.read p.text = .ok c) (split : Lines.ofContent c = .ok lines)
      (parse : records lines = .error (.content .deepNesting)) :
      AlienFile tree p column (.content .deepNesting)
  /-- It holds records, and the first one whose vector cannot be told is alien. -/
  | record {c : Content} {lines : List (List Char)} {before after : List Value} {record : Value}
      {vectors : List (List Float)} {fault : OperandFault} (form : formOf p = .records)
      (read : tree.read p.text = .ok c) (split : Lines.ofContent c = .ok lines)
      (parse : records lines = .ok (before ++ record :: after))
      (vectors_eq : Records.vectorsFrom (.text column) none 0 before = .ok vectors)
      (alien : Records.Alien column record fault) : AlienFile tree p column (.operand fault)
  /-- It holds a table that is packed, and cannot be unpacked. -/
  | packed {found : String} {packing : Packing} {c : Content} {fault : ContentFault}
      (form : formOf p = .table)
      (first : (Packing.locations p.text).find? tree.isOccupied = some found)
      (ending : Packing.ofLocation? found = some packing) (read : tree.read found = .ok c)
      (unpack : packing.unpackContent c = .error fault) : AlienFile tree p column (.content fault)

variable {tree : Tree} {p : Path} {column : String}

theorem contents_array_eq_stray [Machine] (h : f.Stray) (hform : formOf p = .array) :
    contents tree p (.text column) = .error f ↔ AlienFile tree p column f := by
  have hcontents : contents tree p (.text column) =
      (tree.read p.text).mapError Failure.file >>= storedArray := by
    simp only [contents, hform]
  rw [hcontents, bind_eq_error]
  constructor
  · rintro (hread | ⟨c, hread, harray⟩)
    · obtain ⟨fault, -, rfl⟩ := mapError_eq_error.1 hread
      exact absurd h (Failure.not_stray_file fault)
    · exact .array hform (mapError_eq_ok.1 hread) harray
  · intro halien
    cases halien with
    | array _ hread harray => exact .inr ⟨_, mapError_eq_ok.2 hread, harray⟩
    | deep hform' | record hform' | packed hform' =>
      rw [hform] at hform'
      cases hform'

theorem contents_records_eq_stray [Machine] (h : f.Stray) (hform : formOf p = .records) :
    contents tree p (.text column) = .error f ↔ AlienFile tree p column f := by
  have hcontents : contents tree p (.text column) = (do
      let lines ← (Lines.ofContent (← (tree.read p.text).mapError Failure.file)).mapError
        Failure.content
      Records.points (← records lines) (.text column)) := by
    simp only [contents, hform]
  rw [hcontents]
  constructor
  · intro hfails
    rcases bind_eq_error.1 hfails with hread | ⟨c, hread, hfails⟩
    · obtain ⟨fault, -, rfl⟩ := mapError_eq_error.1 hread
      exact absurd h (Failure.not_stray_file fault)
    rcases bind_eq_error.1 hfails with hlines | ⟨lines, hlines, hfails⟩
    · exact absurd h (not_stray_ofContent hlines)
    rcases bind_eq_error.1 hfails with hdeep | ⟨all, hall, hfails⟩
    · have hf := records_eq_stray h hdeep
      rw [hf] at hdeep ⊢
      exact .deep hform (mapError_eq_ok.1 hread) (mapError_eq_ok.1 hlines) hdeep
    · obtain ⟨before, record, after, vectors, fault, rfl, hbefore, halien, rfl⟩ :=
        (Records.points_eq_stray h).1 hfails
      exact .record hform (mapError_eq_ok.1 hread) (mapError_eq_ok.1 hlines) hall hbefore halien
  · intro halien
    cases halien with
    | deep _ hread hlines hdeep =>
      refine bind_eq_error.2 (.inr ⟨_, mapError_eq_ok.2 hread, ?_⟩)
      exact bind_eq_error.2 (.inr ⟨_, mapError_eq_ok.2 hlines, bind_eq_error.2 (.inl hdeep)⟩)
    | record _ hread hlines hall hbefore halien =>
      refine bind_eq_error.2 (.inr ⟨_, mapError_eq_ok.2 hread, ?_⟩)
      refine bind_eq_error.2 (.inr ⟨_, mapError_eq_ok.2 hlines, ?_⟩)
      refine bind_eq_error.2 (.inr ⟨_, hall, (Records.points_eq_stray h).2 ?_⟩)
      exact ⟨_, _, _, _, _, rfl, hbefore, halien, rfl⟩
    | array hform' | packed hform' =>
      rw [hform] at hform'
      cases hform'

/-- The content of a table fails to be there, or to be unpacked. -/
theorem tableContent_eq_stray (h : f.Stray) {location : String} :
    tableContent tree location = .error f ↔ ∃ found packing c fault,
      (Packing.locations location).find? tree.isOccupied = some found ∧
      Packing.ofLocation? found = some packing ∧ tree.read found = .ok c ∧
      packing.unpackContent c = .error fault ∧ f = .content fault := by
  unfold tableContent
  cases hfound : (Packing.locations location).find? tree.isOccupied with
  | none =>
    refine iff_of_false (fun hfails => ?_) fun ⟨found, packing, c, fault, hfound, _⟩ => nomatch hfound
    cases hfails
    exact Failure.not_stray_file _ h
  | some found =>
    show ((tree.read found).mapError Failure.file >>= _) = .error f ↔ _
    constructor
    · intro hfails
      rcases bind_eq_error.1 hfails with hread | ⟨c, hread, hfails⟩
      · obtain ⟨fault, -, rfl⟩ := mapError_eq_error.1 hread
        exact absurd h (Failure.not_stray_file fault)
      · split at hfails
        · cases hfails
        · rename_i packing hpacking
          obtain ⟨fault, hunpack, rfl⟩ := mapError_eq_error.1 hfails
          exact ⟨found, packing, c, fault, rfl, hpacking, mapError_eq_ok.1 hread, hunpack, rfl⟩
    · rintro ⟨_, packing, c, fault, hsame, hpacking, hread, hunpack, rfl⟩
      cases hsame
      refine bind_eq_error.2 (.inr ⟨c, mapError_eq_ok.2 hread, ?_⟩)
      rw [hpacking]
      exact mapError_eq_error.2 ⟨fault, hunpack, rfl⟩

theorem contents_table_eq_stray [Machine] (h : f.Stray) (hform : formOf p = .table) :
    contents tree p (.text column) = .error f ↔ AlienFile tree p column f := by
  have hcontents : contents tree p (.text column) = (do
      let lines ← (Lines.ofContent (← tableContent tree p.text)).mapError Failure.content
      .ofOperands (Table.ofLines lines)) := by
    simp only [contents, hform]
  rw [hcontents, bind_eq_error, tableContent_eq_stray h]
  constructor
  · rintro (⟨found, packing, c, fault, hfound, hpacking, hread, hunpack, rfl⟩ | ⟨c, -, hfails⟩)
    · exact .packed hform hfound hpacking hread hunpack
    · -- what has been unpacked fails as a file
      rcases bind_eq_error.1 hfails with hlines | ⟨lines, -, hfails⟩
      · exact absurd h (not_stray_ofContent hlines)
      · exact absurd h (not_stray_ofLines hfails)
  · intro halien
    cases halien with
    | packed _ hfound hpacking hread hunpack =>
      exact .inl ⟨_, _, _, _, hfound, hpacking, hread, hunpack, rfl⟩
    | array hform' | deep hform' | record hform' =>
      rw [hform] at hform'
      cases hform'

/-- Points fail to load with a stray failure exactly if their file is alien. -/
theorem points_eq_stray [Machine] (h : f.Stray) :
    points tree p (.text column) = .error f ↔ AlienFile tree p column f := by
  have hmatrix {t : Tensor Float} : asMatrix p t ≠ .error f := by
    intro hfails
    rcases asMatrix_ends p t with ⟨m, -, -, hm, -⟩ | ⟨fault, hfault⟩
    · rw [hm] at hfails
      cases hfails
    · rw [hfault, Except.error.injEq] at hfails
      exact Failure.not_stray_configuration _ (hfails ▸ h)
  rw [points, bind_eq_error, or_iff_left fun ⟨_, _, hfails⟩ => hmatrix hfails]
  cases hform : formOf p with
  | array => exact contents_array_eq_stray h hform
  | records => exact contents_records_eq_stray h hform
  | table => exact contents_table_eq_stray h hform

end Load

end ClusterRounds
