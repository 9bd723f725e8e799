/-
  ClusterRounds.Proofs.Documents

  Values that are written as documents and read again. The text of a value is derived by the
  grammar, with the name of a special number for each double in it that is not finite
  (`Fits.derives`). So every value is read back as it was (`read_indented`), and its text is a
  document of the standard grammar exactly if all doubles in it are finite
  (`isStandard_indented_iff`).
-/

import ClusterRounds.Proofs.Grammar

namespace ClusterRounds

open Number Text

namespace Json

variable {limited : Bool} {depth : Nat} {cs rest : List Char}

/-! ## Texts -/

/-- A control character is written by its number. -/
theorem numberedUnit_of_control : ∀ n < 0x20,
    (numberedUnit n).toList
      = ['\\', 'u', '0', '0', Nat.digitChar (n / 16), Nat.digitChar (n % 16)] ∧
    hexUnit? '0' '0' (Nat.digitChar (n / 16)) (Nat.digitChar (n % 16)) = some n := by
  decide +kernel

/-- What is written of a character stands for this character. -/
theorem body_escape {c : Char} (hc : unpaired? c = none) {us : List Nat} (h : Body cs us rest) :
    Body ((escape c).toList ++ cs) (c.toNat :: us) rest := by
  unfold escape
  split
  -- of the characters without a letter of their own only the control characters are numbered
  case h_8 hquote hescape _ _ _ _ _ =>
    rw [hc]
    split
    · rename_i hcontrol
      obtain ⟨htext, hu⟩ := numberedUnit_of_control c.toNat (by simpa using hcontrol)
      rw [Option.getD_none, htext]
      exact .numbered hu h
    · rename_i hvisible
      rw [Char.toString_eq_singleton, String.toList_singleton]
      exact .plain (by simpa using hvisible) hquote hescape h
  all_goals exact .escaped rfl h

theorem body_escapes : ∀ {chars : List Char}, (∀ c ∈ chars, unpaired? c = none) →
    Body ((String.join (chars.map escape)).toList ++ '"' :: rest) (chars.map Char.toNat) rest
  | [], _ => .closed
  | c :: chars, h => by
    have hrest := body_escapes fun d hd => h d (List.mem_cons_of_mem _ hd)
    rw [List.map_cons, List.map_cons, String.join_cons, String.toList_append, List.append_assoc]
    exact body_escape (h c List.mem_cons_self) hrest

/-- No character is half of a pair. -/
theorem isHalf_toNat (c : Char) : isHalf c.toNat = false := by
  have hvalid : c.toNat.isValidChar := c.valid
  rw [← Bool.not_eq_true]
  simp only [isHalf, Bool.and_eq_true, decide_eq_true_eq]
  rcases hvalid with h | ⟨h, -⟩ <;> omega

theorem joinSurrogates_map : ∀ chars : List Char, joinSurrogates (chars.map Char.toNat) = chars
  | [] => rfl
  | [c] => by simp [joinSurrogates, ofUnit, isHalf_toNat]
  | c :: d :: chars => by
    have hrest := joinSurrogates_map (d :: chars)
    -- so no two of them are joined
    have hhigh : ¬ (0xD800 ≤ c.toNat ∧ c.toNat < 0xDC00) := by
      have hhalf := isHalf_toNat c
      simp only [isHalf, Bool.and_eq_false_iff, decide_eq_false_iff_not] at hhalf
      omega
    rw [List.map_cons] at hrest
    rw [List.map_cons, List.map_cons, joinSurrogates, if_neg (by simp; omega), hrest]
    simp [ofUnit, isHalf_toNat]

theorem textOfUnits_map (s : String) : textOfUnits (s.toList.map Char.toNat) = s := by
  rw [textOfUnits, joinSurrogates_map, String.ofList_toList]

/-- A text is written between quotes, and what stands between them is the text. -/
theorem exists_body {s : String} (h : ∀ c ∈ s.toList, unpaired? c = none) (rest : List Char) :
    ∃ cs us, (textLiteral s).toList ++ rest = '"' :: cs ∧ Body cs us rest ∧ textOfUnits us = s :=
  ⟨_, _, by simp [textLiteral], body_escapes h, textOfUnits_map s⟩

/-! ## Numbers -/

theorem whole_toDigits (n : Nat) : Whole (Nat.toDigits 10 n) where
  digits := allDigits_toDigits n
  ne_nil := Nat.toDigits_ne_nil
  leading := by
    rcases Nat.eq_zero_or_pos n with rfl | hn
    · exact .inl rfl
    · exact .inr (head?_toDigits hn)

/-- An integer is written as a number. -/
theorem numeric_int {i : Int} (hshort : limited = true → i.natAbs < 10 ^ maxIntegerDigits) :
    Numeric limited (toString i).toList (.int i) := by
  have hlength : limited = true → (Nat.toDigits 10 i.natAbs).length ≤ maxIntegerDigits := fun h =>
    (Nat.length_toDigits_le_iff (by decide) (by decide)).2 (hshort h)
  have hnumeric := Numeric.integer (decide (i < 0)) (whole_toDigits i.natAbs) hlength
  have hvalue : (if decide (i < 0) = true then -(digitsValue (Nat.toDigits 10 i.natAbs) : Int)
      else digitsValue (Nat.toDigits 10 i.natAbs)) = i := by
    rw [digitsValue_toDigits]
    simp only [decide_eq_true_eq]
    omega
  rw [hvalue] at hnumeric
  rw [toList_int]
  exact hnumeric

/-- A spelling is a number. -/
theorem numeric_spelling {s : Spelling} (h : s.Standard) (negative : Bool) :
    Numeric limited (signed negative s.text) (.float (s.numeral negative).toFloat) := by
  refine .decimal negative ⟨h.whole_digits, h.whole_ne, h.leading⟩
    (Spelling.fraction_fractionChars h.fraction_digits)
    (Spelling.exponent_exponentChars s.exponent) ?_
  rcases h.inexact with hfraction | hexponent
  · rw [Spelling.fractionChars, if_neg hfraction]
    simp
  · obtain ⟨e, he⟩ := Option.ne_none_iff_exists'.1 hexponent
    simp [he, Spelling.exponentChars]

/-- A double is written by the name of a special number, unless it is finite. -/
theorem reads_float (x : Float) : ∃ k, (∀ rest, Reads limited depth
      ((shortestText .document x).toList ++ rest) (.value (.float x)) rest k) ∧
    (k = 0 ↔ x.isFinite = true) := by
  have hparts := Parts.toFloat_ofFloat x
  have hstatus := Parts.status_ofFloat x
  cases hx : Parts.ofFloat x with
  | undefined =>
    rw [hx] at hparts hstatus
    refine ⟨1, fun rest => ?_, by simp [hstatus.2]⟩
    rw [shortestText, hx, Parts.shortest, ← hparts]
    exact .undefined
  | infinite negative =>
    rw [hx] at hparts hstatus
    refine ⟨1, fun rest => ?_, by simp [hstatus.2]⟩
    have hname : Reads limited depth
        (signed negative ('I' :: 'n' :: 'f' :: 'i' :: 'n' :: 'i' :: 't' :: 'y' :: rest))
        (.value (.float (Parts.infinite negative).toFloat)) rest 1 := .infinite negative
    rw [shortestText, hx, Parts.shortest, toList_specialText, ← hparts]
    cases negative <;> exact hname
  | finite negative m e =>
    rw [hx] at hstatus
    have hend : FloatStyle.document.integralEnd = ".0" := rfl
    obtain ⟨s, hs, htext, hrounds⟩ := Spelling.exists_spelling_shortest hx hend
    have hnumeric : Numeric limited (signed negative s.text) (.float (s.numeral negative).toFloat) :=
      numeric_spelling hs negative
    rw [Spelling.toFloat_numeral hx hrounds, ← htext] at hnumeric
    exact ⟨0, fun rest => .number hnumeric, by simp [hstatus.2]⟩

/-! ## Values -/

/-- The value can be written so many lists and records deep: there are no halves of pairs in its
    texts, and no name stands twice in a record. If the reader has limits, they are kept. -/
inductive Fits (limited : Bool) : Nat → Value → Prop
  | null {depth : Nat} : Fits limited depth .null
  | bool {depth : Nat} (b : Bool) : Fits limited depth (.bool b)
  | int {depth : Nat} {i : Int} (short : limited = true → i.natAbs < 10 ^ maxIntegerDigits) :
      Fits limited depth (.int i)
  | float {depth : Nat} (x : Float) : Fits limited depth (.float x)
  | text {depth : Nat} {s : String} (paired : ∀ c ∈ s.toList, unpaired? c = none) :
      Fits limited depth (.text s)
  | list {depth : Nat} {items : List Value} (hdepth : limited = true → depth < deepest)
      (h : ∀ v ∈ items, Fits limited (depth + 1) v) : Fits limited depth (.list items)
  | record {depth : Nat} {fields : List (String × Value)}
      (hdepth : limited = true → depth < deepest)
      (paired : ∀ f ∈ fields, ∀ c ∈ f.1.toList, unpaired? c = none)
      (distinct : (fields.map (·.1)).Nodup) (h : ∀ f ∈ fields, Fits limited (depth + 1) f.2) :
      Fits limited depth (.record fields)

/-- All doubles in the value are finite. -/
inductive IsFinite : Value → Prop
  | null : IsFinite .null
  | bool (b : Bool) : IsFinite (.bool b)
  | int (i : Int) : IsFinite (.int i)
  | float {x : Float} (h : x.isFinite = true) : IsFinite (.float x)
  | text (s : String) : IsFinite (.text s)
  | list {items : List Value} (h : ∀ v ∈ items, IsFinite v) : IsFinite (.list items)
  | record {fields : List (String × Value)} (h : ∀ f ∈ fields, IsFinite f.2) :
      IsFinite (.record fields)

theorem isFinite_float {x : Float} : IsFinite (.float x) ↔ x.isFinite = true :=
  ⟨fun h => by cases h; assumption, .float⟩

theorem isFinite_list {items : List Value} : IsFinite (.list items) ↔ ∀ v ∈ items, IsFinite v :=
  ⟨fun h => by cases h; assumption, .list⟩

theorem isFinite_record {fields : List (String × Value)} :
    IsFinite (.record fields) ↔ ∀ f ∈ fields, IsFinite f.2 :=
  ⟨fun h => by cases h; assumption, .record⟩

/-- Whatever follows, the text is derived as the part, without names of special numbers exactly if
    this is so. -/
def Derives (limited : Bool) (depth : Nat) (cs : List Char) (p : Part) (finite : Prop) : Prop :=
  ∃ k, (∀ rest, Reads limited depth (cs ++ rest) p rest k) ∧ (k = 0 ↔ finite)

theorem spaces_lineAt (depth : Nat) (cs : List Char) : Spaces ((lineAt depth).toList ++ cs) cs := by
  have hspaces (n : Nat) : Spaces (List.replicate n ' ' ++ cs) cs := by
    induction n with
    | zero => exact .done
    | succ n ih => exact .space rfl ih
  have htext : (lineAt depth).toList = '\n' :: List.replicate (2 * depth) ' ' := by simp [lineAt]
  rw [htext]
  exact .space rfl (hspaces _)

theorem indentedItems_eq (depth : Nat) : ∀ items : List Value,
    indentedItems depth items = items.map (indented depth)
  | [] => rfl
  | v :: rest => by rw [indentedItems, List.map_cons, indentedItems_eq depth rest]

/-- The text of a field. -/
def fieldText (depth : Nat) (f : String × Value) : String :=
  textLiteral f.1 ++ ": " ++ indented depth f.2

theorem indentedFields_eq (depth : Nat) : ∀ fields : List (String × Value),
    indentedFields depth fields = fields.map (fieldText depth)
  | [] => rfl
  | (name, v) :: rest => by
    rw [indentedFields, List.map_cons, indentedFields_eq depth rest, fieldText]

/-- Items one below the other are derived as such. -/
theorem derives_items (line last : Nat) : ∀ {items : List Value}, items ≠ [] →
    (∀ v ∈ items, Derives limited depth (indented line v).toList (.value v) (IsFinite v)) →
    Derives limited depth (((("," ++ lineAt line).intercalate
        (items.map (indented line))) ++ lineAt last).toList ++ [']']) (.items items)
      (∀ v ∈ items, IsFinite v)
  | [v], _, h => by
    obtain ⟨k, hv, hk⟩ := h v List.mem_cons_self
    refine ⟨k, fun rest => ?_, by simpa using hk⟩
    have hend := spaces_lineAt last (']' :: rest)
    simpa using Reads.lastItem (hv _) hend
  | v :: w :: items, _, h => by
    obtain ⟨k, hv, hk⟩ := h v List.mem_cons_self
    obtain ⟨l, hitems, hl⟩ := derives_items line last (List.cons_ne_nil w items)
      fun u hu => h u (List.mem_cons_of_mem v hu)
    refine ⟨k + l, fun rest => ?_, ?_⟩
    · simpa [String.intercalate_cons_cons] using
        Reads.item (hv _) .done (spaces_lineAt line _) (hitems rest)
    · rw [List.forall_mem_cons, ← hk, ← hl]
      omega

theorem setField_of_not_mem {fields : List (String × Value)} {name : String}
    (h : name ∉ fields.map (·.1)) (v : Value) : setField fields name v = fields ++ [(name, v)] := by
  have hany : fields.any (·.1 = name) = false := by
    rw [List.any_eq_false]
    intro f hf heq
    exact h (List.mem_map.2 ⟨f, hf, of_decide_eq_true heq⟩)
  rw [setField, hany]
  rfl

/-- The name of a field and its colon, and what stands behind them. -/
theorem exists_field (name : String) (h : ∀ c ∈ name.toList, unpaired? c = none) (line : Nat)
    (v : Value) (rest : List Char) : ∃ cs us cs₁,
      (fieldText line (name, v)).toList ++ rest = '"' :: cs ∧ Body cs us cs₁ ∧
      Spaces cs₁ (':' :: ' ' :: ((indented line v).toList ++ rest)) ∧ textOfUnits us = name := by
  obtain ⟨cs, us, htext, hbody, hname⟩ :=
    exists_body h (':' :: ' ' :: ((indented line v).toList ++ rest))
  exact ⟨cs, us, _, by simpa [fieldText] using htext, hbody, .done, hname⟩

/-- So are fields, after those that are known. -/
theorem derives_fields (line last : Nat) : ∀ {known fields : List (String × Value)}, fields ≠ [] →
    (∀ f ∈ fields, ∀ c ∈ f.1.toList, unpaired? c = none) →
    ((known ++ fields).map (·.1)).Nodup →
    (∀ f ∈ fields, Derives limited depth (indented line f.2).toList (.value f.2) (IsFinite f.2)) →
    Derives limited depth (((("," ++ lineAt line).intercalate
        (fields.map (fieldText line))) ++ lineAt last).toList ++ ['\x7d'])
      (.fields known (known ++ fields)) (∀ f ∈ fields, IsFinite f.2)
  | known, (name, v) :: fields, _, hpaired, hdistinct, h => by
    obtain ⟨k, hv, hk⟩ := h (name, v) List.mem_cons_self
    dsimp only at hv hk
    -- a name that is new is put behind those that are known
    have hnew : name ∉ known.map (·.1) := by
      rw [List.map_append, List.map_cons, List.nodup_middle, List.nodup_cons, List.mem_append,
        not_or] at hdistinct
      exact hdistinct.1.1
    have hname := exists_field name (hpaired (name, v) List.mem_cons_self) line v
    cases fields with
    | nil =>
      refine ⟨k, fun rest => ?_, by simpa using hk⟩
      obtain ⟨cs, us, cs₁, htext, hbody, hcolon, hunits⟩ :=
        hname ((lineAt last).toList ++ '\x7d' :: rest)
      have hfield : Reads limited depth ('"' :: cs) (.fields known _) rest k :=
        .lastField hbody hcolon (.space rfl .done) (hv _) (spaces_lineAt last ('\x7d' :: rest))
      rw [hunits, setField_of_not_mem hnew, ← htext] at hfield
      simpa using hfield
    | cons f fields =>
      have hmore : ((known ++ [(name, v)] ++ f :: fields).map (·.1)).Nodup := by
        rwa [List.append_assoc, List.singleton_append]
      obtain ⟨l, hfields, hl⟩ := derives_fields line last (List.cons_ne_nil f fields)
        (fun g hg => hpaired g (List.mem_cons_of_mem _ hg)) hmore
        fun g hg => h g (List.mem_cons_of_mem _ hg)
      refine ⟨k + l, fun rest => ?_, ?_⟩
      · have hread := hfields rest
        obtain ⟨cs, us, cs₁, htext, hbody, hcolon, hunits⟩ := hname (',' :: ((lineAt line).toList
          ++ ((("," ++ lineAt line).intercalate ((f :: fields).map (fieldText line))
            ++ lineAt last).toList ++ ['\x7d'] ++ rest)))
        rw [← setField_of_not_mem hnew, ← hunits] at hread
        have hfield := Reads.field hbody hcolon (.space rfl .done) (hv _) .done
          (spaces_lineAt line _) hread
        rw [← htext, hunits, setField_of_not_mem hnew] at hfield
        simpa [String.intercalate_cons_cons] using hfield
      · rw [List.forall_mem_cons, ← hk, ← hl]
        omega

/-- What stands between two brackets, unless there is nothing. -/
theorem toList_block {parts : List String} (hne : parts ≠ []) (depth : Nat)
    (opening closing : String) : (block depth opening closing parts).toList
      = opening.toList ++ ((lineAt (depth + 1)).toList ++ ((("," ++ lineAt (depth + 1)).intercalate
        parts ++ lineAt depth).toList ++ closing.toList)) := by
  have hparts : ¬ parts.isEmpty = true := by simpa using hne
  rw [block, if_neg hparts]
  simp

/-- A value that fits is derived from its text. -/
theorem Fits.derives {v : Value} (h : Fits limited depth v) :
    Derives limited depth (indented depth v).toList (.value v) (IsFinite v) := by
  induction h with
  | null =>
    refine ⟨0, fun rest => ?_, by simp [IsFinite.null]⟩
    simpa [indented, literal] using Reads.null
  | bool b =>
    refine ⟨0, fun rest => ?_, by simp [IsFinite.bool b]⟩
    cases b with
    | true => simpa [indented, literal] using Reads.yes
    | false => simpa [indented, literal] using Reads.no
  | @int depth i hshort =>
    exact ⟨0, fun rest => .number (numeric_int hshort), by simp [IsFinite.int i]⟩
  | float x =>
    obtain ⟨k, hread, hk⟩ := reads_float x
    exact ⟨k, hread, hk.trans isFinite_float.symm⟩
  | @text depth s hpaired =>
    refine ⟨0, fun rest => ?_, by simp [IsFinite.text s]⟩
    obtain ⟨cs, us, htext, hbody, hunits⟩ := exists_body hpaired rest
    show Reads limited depth ((textLiteral s).toList ++ rest) _ rest 0
    rw [htext, ← hunits]
    exact .text hbody
  | @list depth items hdepth _ ih =>
    rw [indented, indentedItems_eq]
    rcases eq_or_ne items [] with rfl | hne
    · refine ⟨0, fun rest => ?_, by simp [isFinite_list]⟩
      simpa [block] using Reads.emptyList hdepth .done
    · obtain ⟨k, hitems, hk⟩ := derives_items (depth + 1) depth hne ih
      rw [toList_block (by simpa using hne)]
      refine ⟨k, fun rest => ?_, hk.trans isFinite_list.symm⟩
      have hlist := Reads.list hdepth (spaces_lineAt (depth + 1) _) (hitems rest)
      simpa using hlist
  | @record depth fields hdepth hpaired hdistinct _ ih =>
    rw [indented, indentedFields_eq]
    rcases eq_or_ne fields [] with rfl | hne
    · refine ⟨0, fun rest => ?_, by simp [isFinite_record]⟩
      simpa [block] using Reads.emptyRecord hdepth .done
    · obtain ⟨k, hfields, hk⟩ := @derives_fields limited (depth + 1) (depth + 1) depth [] fields hne
        hpaired hdistinct ih
      rw [toList_block (by simpa using hne)]
      refine ⟨k, fun rest => ?_, hk.trans isFinite_record.symm⟩
      have hrecord := Reads.record hdepth (spaces_lineAt (depth + 1) _) (hfields rest)
      simpa using hrecord

/-! ## Documents -/

theorem exists_denotes {v : Value} (h : Fits limited 0 v) :
    ∃ k, Denotes limited (indented 0 v).toList v k ∧ (k = 0 ↔ IsFinite v) := by
  obtain ⟨k, hread, hk⟩ := h.derives
  have hwhole := hread []
  rw [List.append_nil] at hwhole
  exact ⟨k, ⟨_, _, .done, hwhole, .done⟩, hk⟩

/-- A value within the limits of the reader is read back from its text. -/
theorem read_indented {v : Value} (h : Fits true 0 v) : read (indented 0 v) = .ok v := by
  obtain ⟨k, hdenotes, -⟩ := exists_denotes h
  rcases hdenotes.meets with hread | ⟨hlimited, -⟩
  · exact hread
  · cases hlimited

/-- The text of a value is a standard document exactly if all doubles in it are finite, and then it
    denotes the value. -/
theorem isStandard_indented_iff {v : Value} (h : Fits false 0 v) :
    ((∃ w, IsStandard (indented 0 v) w) ↔ IsFinite v) ∧
      (IsFinite v → IsStandard (indented 0 v) v) := by
  obtain ⟨k, hdenotes, hk⟩ := exists_denotes h
  have hstandard : IsFinite v → IsStandard (indented 0 v) v := by
    intro hfinite
    obtain rfl := hk.2 hfinite
    exact hdenotes
  refine ⟨⟨?_, fun hfinite => ⟨v, hstandard hfinite⟩⟩, hstandard⟩
  rintro ⟨w, hw⟩
  exact hk.1 (hdenotes.standard hw)

/-- It denotes nothing else. -/
theorem eq_of_isStandard {v w : Value} (h : Fits true 0 v) (hw : IsStandard (indented 0 v) w) :
    w = v := hw.eq_of_read (read_indented h)

end Json

end ClusterRounds
