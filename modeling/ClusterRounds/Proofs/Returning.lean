/-
  ClusterRounds.Proofs.Returning

  Tables that are saved come back as they were. The numbers that are told about generated points
  are written in characters that show (`Value.isShown_plain`), so their header is a single line,
  which is a comment, and nothing of it is read as data (`Blobs.silent_header`). The rows are read
  one by one from their own lines, and each number of them is the double that was written.
-/

import ClusterRounds.Dataset.Blobs
import ClusterRounds.Proofs.Saving
import ClusterRounds.Proofs.Spelling

namespace ClusterRounds

open Files Number Text

/-! ## What is told about points -/

/-- The character is a space or one of ASCII that shows, so it ends no line. -/
def Text.IsShown (c : Char) : Prop := 32 ≤ c.toNat ∧ c.toNat < 127

instance (c : Char) : Decidable (Text.IsShown c) := inferInstanceAs (Decidable (_ ∧ _))

theorem Number.isShown_of_isDigit {c : Char} (h : c.isDigit = true) : IsShown c := by
  have hdigit := Char.isDigit_iff_toNat.1 h
  have hzero : '0'.toNat = 48 := rfl
  have hnine : '9'.toNat = 57 := rfl
  exact ⟨by omega, by omega⟩

theorem Number.isShown_signed {negative : Bool} {cs : List Char} (h : ∀ c ∈ cs, IsShown c) :
    ∀ c ∈ signed negative cs, IsShown c := by
  intro c hc
  cases negative with
  | false => exact h c hc
  | true =>
    rcases List.mem_cons.1 hc with rfl | hc
    · decide
    · exact h c hc

/-- The text of a double in messages shows. -/
theorem Number.isShown_message (x : Float) :
    ∀ c ∈ (shortestText .message x).toList, IsShown c := by
  cases hx : Parts.ofFloat x with
  | undefined =>
    rw [shortestText, hx, Parts.shortest]
    simp [FloatStyle.message, IsShown]
  | infinite negative =>
    rw [shortestText, hx, Parts.shortest, toList_specialText]
    exact isShown_signed (by simp [FloatStyle.message, IsShown])
  | finite negative m e =>
    have hend : FloatStyle.message.integralEnd = ".0" := rfl
    obtain ⟨s, hs, htext, -⟩ := Spelling.exists_spelling_shortest hx hend
    rw [htext]
    refine isShown_signed fun c hc => ?_
    rcases Spelling.mem_text hs hc with hdigit | hmark
    · exact isShown_of_isDigit hdigit
    · have hmarks : ∀ d ∈ ['.', 'e', '-', '+'], IsShown d := by simp [IsShown]
      exact hmarks c hmark

theorem Number.isShown_int (i : Int) : ∀ c ∈ (toString i).toList, IsShown c := by
  rw [toList_int]
  exact isShown_signed fun c hc => isShown_of_isDigit (allDigits_toDigits _ c hc)

/-- So does the text of any number, and of a flag. -/
theorem Value.isShown_plain {v : Value} (h : v.quantity?.isSome = true) :
    ∀ c ∈ v.plain.toList, IsShown c := by
  cases v with
  | bool b => cases b <;> simp [Value.plain, Value.shown, Quantity.shown, IsShown]
  | int i => exact isShown_int i
  | float x => exact isShown_message x
  | null | text _ | list _ | record _ => cases h

/-- A header consists of names, values and what stands between them. -/
theorem Save.mem_header {metadata : List (String × Value)} {c : Char}
    (h : c ∈ (header metadata).toList) :
    c ∈ [' ', '='] ∨ ∃ m ∈ metadata, c ∈ m.1.toList ∨ c ∈ m.2.plain.toList := by
  rcases mem_intercalate h with h | ⟨s, hs, h⟩
  · rw [List.mem_singleton.1 h]
    exact .inl (by decide)
  · obtain ⟨m, hm, rfl⟩ := List.mem_map.1 hs
    rw [String.toList_append, String.toList_append, List.mem_append, List.mem_append] at h
    rcases h with (h | h) | h
    · exact .inr ⟨m, hm, .inl h⟩
    · rw [List.mem_singleton.1 h]
      exact .inl (by decide)
    · exact .inr ⟨m, hm, .inr h⟩

namespace Blobs

variable {args : Arguments}

/-- What is told about generated points shows, if it is numbers. -/
theorem isShown_header (h : ∀ m ∈ metadata args, m.2.quantity?.isSome = true) :
    ∀ c ∈ (Save.header (metadata args)).toList, IsShown c := by
  have hnames : ∀ m ∈ metadata args, ∀ c ∈ m.1.toList, IsShown c := by
    simp only [metadata, List.forall_mem_cons]
    simp [IsShown]
  intro c hc
  rcases Save.mem_header hc with hmark | ⟨m, hm, hname | hvalue⟩
  · have hmarks : ∀ d ∈ [' ', '='], IsShown d := by simp [IsShown]
    exact hmarks c hmark
  · exact hnames m hm c hname
  · exact Value.isShown_plain (h m hm) c hvalue

/-- Nothing of it is read as data. -/
theorem silent_header (h : ∀ m ∈ metadata args, m.2.quantity?.isSome = true) :
    Table.Silent (Save.header (metadata args)) :=
  Table.silent_of_no_return fun hreturn =>
    absurd (isShown_header h '\r' hreturn) (by decide)

end Blobs

/-! ## There and back -/

/-- Points with the numbers that are told about generated ones come back from every path that can be
    written and is neither that of an array nor one of records: as many rows of as many columns,
    with the same doubles at the same places. -/
theorem saved_table_comes_back [Machine] {location : String} {tree made emptied : Tree} {c : Content}
    (hmade : tree.makeDirectories (Path.ofText location).parent = .ok made)
    (hwritten : made.write (Path.ofText location).text c = .ok emptied)
    (hsuffix : (Path.ofText location).suffix ∉ [".npy", ".jsonl", ".ndjson"])
    {data : Tensor Float} {n width : Nat} (hshape : data.shape = [n, width]) (hn : 0 < n)
    (hwidth : 0 < width) {args : Arguments}
    (hnumbers : ∀ m ∈ Blobs.metadata args, m.2.quantity?.isSome = true)
    (hroom : Packing.HasRoom (Path.ofText location).text
      (Save.textOf (Blobs.metadata args) data))
    (column : Value) :
    ∃ after, Save.points tree (.ofText location) data (Blobs.metadata args) = (.ok (), after) ∧
      Load.points after (.ofText location) column = .ok data := by
  have hp := Path.wellFormed_ofText location
  simp only [List.mem_cons, List.not_mem_nil, or_false, not_or] at hsuffix
  obtain ⟨harray, hrecords⟩ := hsuffix
  have htarget : Save.target (Path.ofText location) = (Path.ofText location).text := if_neg harray
  rw [← htarget] at hwritten
  obtain ⟨at_, hwritable, -⟩ := Tree.write_eq_ok.1 hwritten
  have hpaired : ∀ c ∈ (Save.header (Blobs.metadata args)).toList, unpaired? c = none := fun c hc =>
    unpaired?_of_ascii (Nat.lt_succ_of_lt (Blobs.isShown_header hnumbers c hc).2)
  refine ⟨_, Save.points_of_writable hmade hwritable fun _ =>
    Save.tableText_of_paired hpaired hshape, ?_⟩
  have hloaded := Save.table_load hp hwritable hshape hn hwidth harray hrecords
    (Blobs.silent_header hnumbers) hroom column
  -- each number is the double that was written
  have hreread : Table.reread = id := funext Table.reread_eq
  have hrows : (data.rowLists.map fun xs => xs.map Table.reread) = data.rowLists := by
    simp [hreread]
  rw [hrows, Tensor.ofRowLists_rowLists hshape] at hloaded
  exact hloaded

namespace Save.Sample

/-- What three points of one coordinate are asked for with. -/
def arguments : Arguments := [("N", .int 3), ("D", .int 1), ("K", .int 2)]

/-- A single column: the negative zero, the undefined double and the least infinity. -/
def specials : Tensor Float :=
  ⟨[3, 1], [Float.ofBits 0x8000000000000000, Float.ofBits 0x7FF8000000000000,
    Float.ofBits 0xFFF0000000000000], rfl⟩

end Save.Sample

/-- A single column of special doubles comes back. -/
theorem saved_table_comes_back_specials :
    ∃ after, Save.points Save.Sample.place (.ofText "b.txt") Save.Sample.specials
        (Blobs.metadata Save.Sample.arguments) = (.ok (), after) ∧
      Load.points after (.ofText "b.txt") (.text "features") = .ok Save.Sample.specials := by
  have hparent : (Path.ofText "b.txt").parent = ⟨"", []⟩ := by decide +kernel
  have htext : (Path.ofText "b.txt").text = "b.txt" := by decide +kernel
  have hsuffix : (Path.ofText "b.txt").suffix ∉ [".npy", ".jsonl", ".ndjson"] := by decide +kernel
  have hmade : Save.Sample.place.makeDirectories (Path.ofText "b.txt").parent
      = .ok Save.Sample.place := hparent ▸ Save.Sample.makeDirectories_place
  have hwritten : Save.Sample.place.write (Path.ofText "b.txt").text (.text "")
      = .ok (Save.Sample.place.put ["b.txt"] (.text "")) := by
    rw [htext]
    exact Tree.write_eq_ok.2 ⟨_, Save.Sample.writableAt_place (by decide +kernel)
      (by decide +kernel) (by decide +kernel) (by decide) (by decide +kernel), rfl⟩
  have hnumbers : ∀ m ∈ Blobs.metadata Save.Sample.arguments, m.2.quantity?.isSome = true := by
    show ∀ m ∈ [("N", Value.int 3), ("D", .int 1), ("K", .int 2), ("cluster_std", .float 1),
      ("seed", .int 42)], m.2.quantity?.isSome = true
    simp [Value.quantity?]
  have hplain : Packing.ofLocation? "b.txt" = none := by decide +kernel
  have hroom : Packing.HasRoom (Path.ofText "b.txt").text
      (Save.textOf (Blobs.metadata Save.Sample.arguments) Save.Sample.specials) := by
    intro hpacking
    rw [htext, hplain] at hpacking
    cases hpacking
  have hshape : Save.Sample.specials.shape = [3, 1] := rfl
  exact saved_table_comes_back hmade hwritten hsuffix hshape (by decide) (by decide) hnumbers hroom
    (.text "features")

end ClusterRounds
