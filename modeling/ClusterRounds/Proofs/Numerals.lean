/-
  ClusterRounds.Proofs.Numerals

  The texts of numbers consist of characters of ASCII, in which there is no half of a pair.
  So does the text of a table, if its header does.
-/

import ClusterRounds.Dataset.Save
import ClusterRounds.Proofs.Outcome

namespace ClusterRounds

namespace Text

/-- All characters are among the first 128. -/
def IsAscii (s : String) : Prop := ∀ c ∈ s.toList, c.toNat < 128

instance (s : String) : Decidable (IsAscii s) :=
  List.decidableBAll (fun c : Char => c.toNat < 128) s.toList

theorem IsAscii.append {s t : String} (hs : IsAscii s) (ht : IsAscii t) : IsAscii (s ++ t) := by
  intro c hc
  rw [String.toList_append, List.mem_append] at hc
  exact hc.elim (hs c) (ht c)

theorem isAscii_ofList {cs : List Char} (h : ∀ c ∈ cs, c.toNat < 128) : IsAscii (String.ofList cs) := by
  intro c hc
  rw [String.toList_ofList] at hc
  exact h c hc

theorem isAscii_toString {c : Char} (h : c.toNat < 128) : IsAscii c.toString := by
  intro d hd
  rw [Char.toString_eq_singleton, String.toList_singleton, List.mem_singleton] at hd
  rwa [hd]

theorem isAscii_join {ss : List String} (h : ∀ s ∈ ss, IsAscii s) : IsAscii (String.join ss) := by
  intro c hc
  rw [String.toList_join, List.mem_flatMap] at hc
  obtain ⟨s, hs, hc⟩ := hc
  exact h s hs c hc

theorem mem_intercalate {separator : String} {c : Char} :
    ∀ {ss : List String}, c ∈ (separator.intercalate ss).toList →
      c ∈ separator.toList ∨ ∃ s ∈ ss, c ∈ s.toList
  | [], h => by
    rw [String.intercalate_nil] at h
    exact nomatch h
  | [s], h => by
    rw [String.intercalate_singleton] at h
    exact .inr ⟨s, List.mem_cons_self, h⟩
  | s :: t :: rest, h => by
    rw [String.intercalate_cons_cons, String.toList_append, String.toList_append, List.mem_append,
      List.mem_append] at h
    rcases h with (h | h) | h
    · exact .inr ⟨s, List.mem_cons_self, h⟩
    · exact .inl h
    · exact (mem_intercalate h).imp_right fun ⟨u, hu, hc⟩ => ⟨u, List.mem_cons_of_mem _ hu, hc⟩

theorem isAscii_intercalate {separator : String} (hseparator : IsAscii separator) {ss : List String}
    (h : ∀ s ∈ ss, IsAscii s) : IsAscii (separator.intercalate ss) := by
  intro c hc
  rcases mem_intercalate hc with hc | ⟨s, hs, hc⟩
  · exact hseparator c hc
  · exact h s hs c hc

theorem unpaired?_of_ascii {c : Char} (h : c.toNat < 128) : unpaired? c = none := by
  rw [unpaired?, Nat.sub_eq_zero_of_le (Nat.le_trans (Nat.le_of_lt h) (by decide))]
  exact if_neg (by decide)

end Text

namespace Number

open Text

/-! ## Numbers -/

theorem toNat_of_mem_toDigits {n : Nat} {c : Char} (h : c ∈ Nat.toDigits 10 n) : c.toNat < 128 := by
  have hdigit := Nat.isDigit_of_mem_toDigits (by decide) (by decide) h
  exact Nat.lt_of_le_of_lt (Char.isDigit_iff_toNat.1 hdigit).2 (by decide)

theorem toNat_of_mem_replicate {n : Nat} {c : Char} (h : c ∈ List.replicate n '0') :
    c.toNat < 128 := by
  rw [List.eq_of_mem_replicate h]
  decide

theorem isAscii_int (i : Int) : IsAscii (toString i) := by
  cases i with
  | ofNat n =>
    show IsAscii (Nat.repr n)
    rw [Nat.repr_eq_ofList_toDigits]
    exact isAscii_ofList fun _ hc => toNat_of_mem_toDigits hc
  | negSucc n =>
    show IsAscii ("-" ++ Nat.repr (n + 1))
    rw [Nat.repr_eq_ofList_toDigits]
    exact IsAscii.append (by decide) (isAscii_ofList fun _ hc => toNat_of_mem_toDigits hc)

theorem isAscii_paddedDigits (width n : Nat) : IsAscii (paddedDigits width n) :=
  isAscii_ofList fun _ hc =>
    (List.mem_append.1 hc).elim toNat_of_mem_replicate toNat_of_mem_toDigits

theorem isAscii_exponentText (e : Int) : IsAscii (exponentText e) := by
  refine IsAscii.append ?_ (isAscii_paddedDigits _ _)
  split <;> decide

theorem isAscii_pointAfterFirst {digits : String} (h : IsAscii digits) :
    IsAscii (pointAfterFirst digits) := by
  unfold pointAfterFirst
  split
  · decide
  · rename_i d hd
    exact isAscii_toString (h d (by simp [hd]))
  · rename_i d rest _ hd
    exact ((isAscii_toString (h d (by simp [hd]))).append (by decide)).append
      (isAscii_ofList fun c hc => h c (by simp [hd, hc]))

theorem isAscii_specialText (negative : Bool) {name : String} (h : IsAscii name) :
    IsAscii (specialText negative name) := by
  unfold specialText
  split
  · exact IsAscii.append (by decide) h
  · exact h

theorem isAscii_scientificText (places : Nat) (x : Float) : IsAscii (scientificText places x) := by
  unfold scientificText Parts.scientific
  split
  · decide
  · exact isAscii_specialText _ (by decide)
  · exact isAscii_specialText _ (((isAscii_pointAfterFirst (isAscii_paddedDigits _ _)).append
      (by decide)).append (isAscii_exponentText _))

theorem isAscii_positional {integralEnd : String} (hend : IsAscii integralEnd) (d : Decimal) :
    IsAscii (d.positional integralEnd) := by
  unfold Decimal.positional
  dsimp only
  split
  · exact IsAscii.append (by decide) (isAscii_ofList fun _ hc =>
      (List.mem_append.1 hc).elim toNat_of_mem_replicate toNat_of_mem_toDigits)
  · split
    · exact (isAscii_ofList fun _ hc =>
        (List.mem_append.1 hc).elim toNat_of_mem_toDigits toNat_of_mem_replicate).append hend
    · exact ((isAscii_ofList fun _ hc => toNat_of_mem_toDigits (List.mem_of_mem_take hc)).append
        (by decide)).append
        (isAscii_ofList fun _ hc => toNat_of_mem_toDigits (List.mem_of_mem_drop hc))

theorem isAscii_message (x : Float) : IsAscii (shortestText .message x) := by
  have hend : IsAscii FloatStyle.message.integralEnd := by decide
  unfold shortestText Parts.shortest
  split
  · decide
  · exact isAscii_specialText _ (by decide)
  · split
    · exact isAscii_specialText _ (IsAscii.append (by decide) hend)
    · refine isAscii_specialText _ ?_
      split
      · exact isAscii_positional hend _
      · exact ((isAscii_pointAfterFirst (isAscii_paddedDigits _ _)).append
          (by decide)).append (isAscii_exponentText _)

end Number

/-! ## Tables -/

open Text Number

namespace Table

/-- What is written in front of a table comes from its header, or starts or ends a comment. -/
theorem mem_headerText {header : String} {c : Char} (h : c ∈ (headerText header).toList) :
    c ∈ ['#', ' ', '\n'] ∨ c ∈ header.toList := by
  have hcomment : ∀ s ∈ ["# ", "\n# ", "\n"], ∀ d ∈ s.toList, d ∈ ['#', ' ', '\n'] := by simp
  unfold headerText at h
  split at h
  · exact nomatch h
  · rw [String.toList_append, String.toList_append, String.toList_join, List.flatMap_map,
      List.mem_append, List.mem_append, List.mem_flatMap] at h
    rcases h with (h | ⟨d, hd, h⟩) | h
    · exact .inl (hcomment "# " (by decide) c h)
    · split at h
      · exact .inl (hcomment "\n# " (by decide) c h)
      · rw [Char.toString_eq_singleton, String.toList_singleton, List.mem_singleton] at h
        exact .inr (h ▸ hd)
    · exact .inl (hcomment "\n" (by decide) c h)

theorem isAscii_rowsText (rows : List (List Float)) : IsAscii (rowsText rows) := by
  refine isAscii_join fun s hs => ?_
  obtain ⟨row, -, rfl⟩ := List.mem_map.1 hs
  refine (isAscii_intercalate (by decide) fun t ht => ?_).append (by decide)
  obtain ⟨x, -, rfl⟩ := List.mem_map.1 ht
  exact isAscii_scientificText _ x

end Table

/-- The value is a number in the narrow sense. -/
def Value.IsNumber (v : Value) : Prop := (∃ i, v = .int i) ∨ ∃ x, v = .float x

theorem Value.IsNumber.isAscii {v : Value} (h : v.IsNumber) : IsAscii v.plain := by
  rcases h with ⟨i, rfl⟩ | ⟨x, rfl⟩
  · exact isAscii_int i
  · exact isAscii_message x

/-- A matrix has a text if no half of a pair is told about it. -/
theorem Save.tableText_of_paired {metadata : List (String × Value)}
    (h : ∀ c ∈ (header metadata).toList, unpaired? c = none) {n width : Nat} {data : Tensor Float}
    (hshape : data.shape = [n, width]) :
    tableText metadata data
      = .ok (Table.headerText (header metadata) ++ Table.rowsText data.rowLists) := by
  have hwhole : ((Table.headerText (header metadata) ++ Table.rowsText data.rowLists).toList.any
      fun c => (unpaired? c).isSome) = false := by
    rw [List.any_eq_false]
    intro c hc
    rw [Bool.not_eq_true, Option.isSome_eq_false_iff, Option.isNone_iff_eq_none]
    rw [String.toList_append, List.mem_append] at hc
    rcases hc with hc | hc
    · rcases Table.mem_headerText hc with hc | hc
      · have hascii : ∀ d ∈ ['#', ' ', '\n'], d.toNat < 128 := by simp
        exact unpaired?_of_ascii (hascii c hc)
      · exact h c hc
    · exact unpaired?_of_ascii (Table.isAscii_rowsText data.rowLists c hc)
  have htext : Table.text (header metadata) data
      = .ok (Table.headerText (header metadata) ++ Table.rowsText data.rowLists) := by
    simp [Table.text, hshape]
  rw [tableText, htext]
  show (if _ = true then _ else _) = _
  rw [hwhole, if_neg Bool.false_ne_true]
  rfl

/-- A matrix has a text if what is told about it are numbers under plain names. -/
theorem Save.tableText_eq_ok {metadata : List (String × Value)}
    (h : ∀ m ∈ metadata, IsAscii m.1 ∧ m.2.IsNumber) {n width : Nat} {data : Tensor Float}
    (hshape : data.shape = [n, width]) :
    tableText metadata data
      = .ok (Table.headerText (header metadata) ++ Table.rowsText data.rowLists) := by
  have hheader : IsAscii (header metadata) := by
    refine isAscii_intercalate (by decide) fun s hs => ?_
    obtain ⟨m, hm, rfl⟩ := List.mem_map.1 hs
    exact ((h m hm).1.append (by decide)).append (h m hm).2.isAscii
  exact tableText_of_paired (fun c hc => unpaired?_of_ascii (hheader c hc)) hshape

end ClusterRounds
