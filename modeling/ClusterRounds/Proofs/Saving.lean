/-
  ClusterRounds.Proofs.Saving

  Points that are written and read again. The suffix of a path tells the writer and the reader
  where and in which form points are (`Save.target`, `Save.formOf`, `Load.formOf`), and each
  has rules of its own; `Save.agrees_iff` says on which paths they agree.
-/

import ClusterRounds.Dataset.Load
import ClusterRounds.Proofs.Packing.Blocks
import ClusterRounds.Proofs.Packing.Container
import ClusterRounds.Proofs.Packing.Stored
import ClusterRounds.Proofs.Rereading
import ClusterRounds.Proofs.Walking
import ClusterRounds.Proofs.Writing

namespace ClusterRounds

open Files

/-! ## Files and forms -/

namespace Load

variable {p : Path}

theorem formOf_array (h : p.suffix = Save.arraySuffix) : formOf p = .array := by
  rw [formOf, h]
  rfl

theorem formOf_records (h : p.suffix = ".jsonl" ∨ p.suffix = ".ndjson") : formOf p = .records := by
  rcases h with h | h <;> rw [formOf, h] <;> rfl

theorem formOf_table (harray : p.suffix ≠ Save.arraySuffix)
    (hrecords : p.suffix ≠ ".jsonl" ∧ p.suffix ≠ ".ndjson") : formOf p = .table := by
  have harray : p.suffix ≠ ".npy" := harray
  simp [formOf, harray, hrecords]

end Load

namespace Save

/-- The form in which points are written. -/
def formOf (p : Path) : Load.Form := if p.suffix = arraySuffix then .array else .table

/-- The location at which points are written. -/
def target (p : Path) : String := if p.suffix = arraySuffix then (arrayPath p).text else p.text

/-- What is written there: the array itself, or its text. -/
def contentOf (p : Path) (data : Tensor Float) (s : String) : Content :=
  if p.suffix = arraySuffix then .array (.binary .double) data else Packing.textContent p.text s

/-- Writer and reader go to the same file and take it in the same form. -/
def Agrees (p : Path) : Prop := target p = p.text ∧ formOf p = Load.formOf p

variable {p : Path} {tree made : Tree} {at_ : List String} {data : Tensor Float} {n width : Nat}
  {metadata : List (String × Value)} {s : String}

/-- A path without parts has no suffix. -/
theorem parts_ne_nil (h : p.suffix ≠ "") : p.parts ≠ [] := by
  intro hnil
  rw [Path.suffix, Path.name, hnil] at h
  exact h rfl

/-- The suffix of arrays behind a name makes another path. -/
theorem text_extend_ne (hp : p.WellFormed) (hne : p.parts ≠ []) :
    (p.extend arraySuffix).text ≠ p.text := by
  have hending : '/' ∉ arraySuffix.toList := by decide
  obtain ⟨front, hsteps, hextended⟩ := hp.stepsOf_extend hne hending
  intro heq
  rw [heq, hsteps] at hextended
  have hname := congrArg String.length (List.singleton_inj.1 (List.append_cancel_left hextended))
  have hlength : arraySuffix.length = 4 := by decide
  rw [String.length_append] at hname
  omega

/-- Writer and reader agree but on arrays whose suffix is not in small letters, and on records. -/
theorem agrees_iff (hp : p.WellFormed) : Agrees p ↔
    (p.suffix = arraySuffix → p.text.endsWith arraySuffix = true) ∧
      p.suffix ≠ ".jsonl" ∧ p.suffix ≠ ".ndjson" := by
  unfold Agrees target formOf
  by_cases harray : p.suffix = arraySuffix
  · have hne : p.parts ≠ [] := parts_ne_nil (by rw [harray]; decide)
    have hforms : p.suffix ≠ ".jsonl" ∧ p.suffix ≠ ".ndjson" := by
      rw [harray]
      decide
    rw [if_pos harray, if_pos harray, Load.formOf_array harray, arrayPath]
    by_cases hending : p.text.endsWith arraySuffix = true
    · rw [if_pos hending]
      exact iff_of_true ⟨rfl, rfl⟩ ⟨fun _ => hending, hforms⟩
    · rw [if_neg hending]
      exact iff_of_false (fun h => text_extend_ne hp hne h.1) fun h => hending (h.1 harray)
  · rw [if_neg harray, if_neg harray]
    by_cases hforms : p.suffix ≠ ".jsonl" ∧ p.suffix ≠ ".ndjson"
    · rw [Load.formOf_table harray hforms]
      exact iff_of_true ⟨rfl, rfl⟩ ⟨fun h => absurd h harray, hforms⟩
    · have hrecords := Load.formOf_records (p := p) (by rwa [not_and_or, not_not, not_not] at hforms)
      rw [hrecords]
      exact iff_of_false (fun h => nomatch h.2) fun h => hforms h.2

/-! ## Writing -/

/-- Points are written if their directory can be made, their file can be written, and their text, if
    they need one, can be. -/
theorem points_of_writable (hmade : tree.makeDirectories p.parent = .ok made)
    (hwritable : made.WritableAt (target p) at_)
    (htext : p.suffix ≠ arraySuffix → tableText metadata data = .ok s) :
    points tree p data metadata = (.ok (), made.put at_ (contentOf p data s)) := by
  have hwrite (c : Content) : made.write (target p) c = .ok (made.put at_ c) :=
    Tree.write_eq_ok.2 ⟨at_, hwritable, rfl⟩
  unfold points contentOf
  rw [hmade]
  dsimp only
  by_cases harray : p.suffix = arraySuffix
  · rw [target, if_pos harray] at hwrite
    rw [if_pos harray, if_pos harray, hwrite]
  · rw [target, if_neg harray] at hwrite hwritable
    -- the file is emptied first
    have hagain (c c' : Content) : (made.put at_ c).write p.text c' = .ok (made.put at_ c') :=
      Tree.write_eq_ok.2 ⟨at_, hwritable.congr Tree.directories_put, Tree.put_put c'⟩
    rw [if_neg harray, if_neg harray, hwrite, htext harray]
    dsimp only
    rw [hagain]
    rfl

end Save

/-! ## Reading -/

theorem Packing.textOf_toUTF8 (s : String) :
    Lines.textOf (.bytes s.toUTF8) = .ok s := by
  have hvalid : s.toUTF8.IsValidUTF8 := s.isValidUTF8
  rw [Lines.textOf, String.fromUTF8?, dif_pos hvalid]
  rfl

/-- There is room for a text: a container writes the sizes of what it holds, and of the chunks that
    hold it, in 63 bits each. -/
def Packing.HasRoom (location s : String) : Prop :=
  ofLocation? location = some .xz → s.utf8ByteSize < 2 ^ 60

/-- What is packed is found again. -/
theorem Packing.unpack_pack {location s : String} (hroom : HasRoom location s) {packing : Packing}
    (hpacking : ofLocation? location = some packing) :
    packing.unpack (packing.pack s.toUTF8) = .ok s.toUTF8 := by
  cases packing with
  | bzip => exact Bzip.unpack_pack s.toUTF8
  | gzip => exact Gzip.unpack_pack s.toUTF8
  | xz => exact Xz.unpack_pack s.toUTF8 (hroom hpacking)

namespace Load

variable {p : Path} {tree : Tree} {data : Tensor Float} {n width : Nat} {s : String}

theorem asMatrix_of_shape (p : Path) {t : Tensor Float} (h : t.shape = [n, width]) :
    asMatrix p t = .ok t := by
  unfold asMatrix
  split
  · rename_i hshape
    rw [h] at hshape
    cases hshape
  · rfl
  · rename_i hshape
    exact absurd h (hshape _ _)

/-- A stored array of doubles is read in its shape. -/
theorem points_of_array [Machine] (hform : formOf p = .array)
    (hread : tree.read p.text = .ok (.array (.binary .double) data))
    (hshape : data.shape = [n, width]) (column : Value) :
    ∃ t, points tree p column = .ok t ∧ t.shape = [n, width] := by
  obtain ⟨t, hstored, ht⟩ : ∃ t, storedArray (.array (.binary .double) data) = .ok t ∧
      t.shape = [n, width] := by
    have hentries : data.entries.mapM (ElementType.binary .double).store
        = .ok (data.entries.map (Number.roundThrough .double)) := mapM_eq_ok_map fun _ _ => rfl
    have hlength : (data.entries.map (Number.roundThrough .double)).length = data.shape.size := by
      rw [List.length_map, data.length_entries]
    refine ⟨⟨data.shape, _, hlength⟩, ?_, hshape⟩
    unfold storedArray
    dsimp only
    rw [hentries]
    show Except.ok ((Tensor.ofEntries? data.shape _).getD data) = _
    rw [Tensor.ofEntries?, dif_pos hlength]
    rfl
  refine ⟨t, ?_, ht⟩
  have hcontents : contents tree p column = .ok t := by
    unfold contents
    rw [hform, hread]
    exact hstored
  rw [points, hcontents]
  exact asMatrix_of_shape p ht

/-- A text that is written where a table is read is what the table is made of. -/
theorem contents_of_table [Machine] (hform : formOf p = .table)
    (hoccupied : tree.isOccupied p.text = true)
    (hread : tree.read p.text = .ok (Packing.textContent p.text s))
    (hroom : Packing.HasRoom p.text s) (column : Value) :
    contents tree p column = .ofOperands (Table.ofLines (Lines.split s.toList)) := by
  have hfind : (Packing.locations p.text).find? tree.isOccupied = some p.text :=
    List.find?_cons_of_pos hoccupied
  obtain ⟨c, hcontent, htext⟩ : ∃ c, tableContent tree p.text = .ok c ∧ Lines.textOf c = .ok s := by
    unfold tableContent
    rw [hfind]
    dsimp only
    rw [hread]
    unfold Packing.textContent
    cases hpacking : Packing.ofLocation? p.text with
    | none => exact ⟨_, rfl, rfl⟩
    | some packing =>
      have hunpack : packing.unpackContent (.bytes (packing.pack s.toUTF8)) = .ok (.bytes s.toUTF8) := by
        rw [Packing.unpackContent, Packing.unpack_pack hroom hpacking]
        rfl
      refine ⟨.bytes s.toUTF8, ?_, Packing.textOf_toUTF8 s⟩
      show (packing.unpackContent (.bytes (packing.pack s.toUTF8))).mapError Failure.content = _
      rw [hunpack]
      rfl
  unfold contents
  rw [hform]
  dsimp only
  rw [hcontent]
  show (Except.mapError Failure.content (Lines.ofContent c) >>= _) = _
  rw [Lines.ofContent, htext]
  rfl

/-- A table is a matrix as it is. -/
theorem points_of_contents_eq [Machine] {lines : List (List Char)} {column : Value}
    (h : contents tree p column = .ofOperands (Table.ofLines lines)) :
    points tree p column = .ofOperands (Table.ofLines lines) := by
  rw [points, h]
  cases hlines : Table.ofLines lines with
  | error fault => rfl
  | ok t =>
    obtain ⟨n, width, hshape⟩ := Table.exists_shape_of_ofLines hlines
    exact asMatrix_of_shape p hshape

end Load

/-! ## Tables that are taken for records -/

/-- The value is a number, a flag, or nothing. -/
def Value.IsBare (v : Value) : Prop := v = .null ∨ ∃ q, v.quantity? = some q

theorem Value.IsBare.has {v : Value} (h : v.IsBare) (column : Value) :
    Records.has v column = .error .wrongKind := by
  cases v with
  | null | bool _ | int _ | float _ => rfl
  | text _ | list _ | record _ => simp [IsBare, quantity?] at h

namespace Json

theorem isBare_of_number {negative : Bool} {cs rest : List Char} {v : Value}
    (h : number? negative cs = .ok (v, rest)) : v.IsBare := by
  unfold number? at h
  dsimp only at h
  split at h
  · cases h
  · split at h
    · split at h
      · cases h
      · cases h
        exact .inr ⟨_, rfl⟩
    · split at h
      · cases h
        exact .inr ⟨_, rfl⟩
      · cases h

theorem isBare_of_atom {cs rest : List Char} {v : Value} (h : atom? cs = .ok (v, rest)) :
    v.IsBare := by
  unfold atom? at h
  split at h
  case h_7 | h_8 => exact isBare_of_number h
  case h_1 =>
    cases h
    exact .inl rfl
  all_goals
    cases h
    exact .inr ⟨_, rfl⟩

/-- A value that begins with none of the marks of texts, lists and records is bare. -/
theorem isBare_of_value {c : Char} (hc : c ∉ ['"', '[', '\x7b']) {depth : Nat} {cs rest : List Char}
    {v : Value} : ∀ {fuel : Nat}, value? depth fuel (c :: cs) = .ok (v, rest) → v.IsBare
  | 0, h => by
    rw [value?] at h
    cases h
  | fuel + 1, h => by
    rw [value?_eq_atom? hc] at h
    exact isBare_of_atom h

/-- So it is with a whole document. -/
theorem isBare_of_read {c : Char} (hmarks : c ∉ ['"', '[', '\x7b']) (hblank : Text.isBlank c = false)
    {cs : List Char} {v : Value} (h : read (String.ofList (c :: cs)) = .ok v) : v.IsBare := by
  have hspaces : ∀ d, isSpace d = true → Text.isBlank d = true := by
    simp only [isSpace, Bool.or_eq_true, decide_eq_true_eq]
    rintro d (((rfl | rfl) | rfl) | rfl) <;> decide
  have hspace : ¬ isSpace c = true := fun hspace => by
    rw [hspaces c hspace] at hblank
    cases hblank
  have hskip : skipSpaces (c :: cs) = c :: cs := List.dropWhile_cons_of_neg hspace
  unfold read at h
  rw [String.toList_ofList] at h
  dsimp only at h
  rw [hskip] at h
  obtain ⟨⟨w, rest⟩, hvalue, h⟩ := bind_eq_ok.1 h
  dsimp only at h
  split at h
  · cases h
    exact isBare_of_value hmarks hvalue
  · cases h

end Json

/-- Records of which the first one is bare have no points. -/
theorem Records.points_of_isBare {v : Value} (h : v.IsBare) (vs : List Value) (column : Value) :
    ∃ f, points (v :: vs) column = .error f := by
  have hvector : vectorOf column none 0 v = .error (.operand .wrongKind) := by
    rw [vectorOf, h.has]
    rfl
  have hvectors : vectorsFrom column none 0 (v :: vs) = .error (.operand .wrongKind) := by
    rw [vectorsFrom, hvector]
    rfl
  exact ⟨_, bind_eq_error.2 (.inl hvectors)⟩

/-- The text of a table holds no records: its first line is a comment or a row. -/
theorem Load.points_of_records [Machine] {p : Path} {tree : Tree} (hform : formOf p = .records)
    {c : Content} {line : List Char} {lines : List (List Char)} {first : Char}
    (hread : tree.read p.text = .ok c) (hlines : Lines.ofContent c = .ok ((first :: line) :: lines))
    (hmarks : first ∉ ['"', '[', '\x7b']) (hblank : Text.isBlank first = false) (column : Value) :
    ∃ f, points tree p column = .error f := by
  have hkept : ((first :: line) :: lines).filter (fun l => !l.all Text.isBlank)
      = (first :: line) :: lines.filter (fun l => !l.all Text.isBlank) :=
    List.filter_cons_of_pos (by simp [hblank])
  have hcontents : contents tree p column
      = records ((first :: line) :: lines) >>= fun vs => Records.points vs column := by
    unfold contents
    rw [hform]
    dsimp only
    rw [hread]
    show (Except.mapError Failure.content (Lines.ofContent c) >>= _) = _
    rw [hlines]
    rfl
  obtain ⟨f, hf⟩ : ∃ f, contents tree p column = .error f := by
    rw [hcontents, records, hkept, List.mapM_cons]
    cases hfirst : record (first :: line) with
    | error f => exact ⟨f, rfl⟩
    | ok v =>
      have hbare : v.IsBare := by
        unfold record at hfirst
        split at hfirst <;> cases hfirst
        exact Json.isBare_of_read hmarks hblank ‹_›
      cases hrest : (lines.filter fun l => !l.all Text.isBlank).mapM record with
      | error f => exact ⟨f, rfl⟩
      | ok vs => exact Records.points_of_isBare hbare vs column
  exact ⟨f, bind_eq_error.2 (.inl hf)⟩

namespace Packing

/-- The characters of a name behind its last dot. -/
def afterDot (cs : List Char) : List Char := (cs.reverse.takeWhile (· ≠ '.')).reverse

/-- The ending of a path's text is that of its name. -/
theorem endingOf_text {p : Path} (hp : p.WellFormed) (hne : p.parts ≠ []) :
    endingOf p.text = "" ∨ endingOf p.text = String.ofList ('.' :: afterDot p.name.toList) := by
  obtain ⟨front, htext, hfront⟩ := hp.exists_front hne
  have hname : ∀ c ∈ p.name.toList.reverse, decide (c ≠ '/') = true := by
    obtain ⟨parts, name, hparts⟩ := (List.eq_nil_or_concat' p.parts).resolve_left hne
    have hslash := (hp.parts name (by rw [hparts]; simp)).2
    have hname : p.name = name := by simp [Path.name, hparts]
    intro c hc
    rw [hname, List.mem_reverse] at hc
    exact decide_eq_true fun heq => hslash (heq ▸ hc)
  -- the name stands behind a slash, or there is nothing in front of it
  have hrest : front.reverse.takeWhile (· ≠ '/') = [] := by
    rcases hfront with rfl | ⟨others, rfl⟩
    · rfl
    · rw [List.reverse_append, List.reverse_singleton, List.singleton_append]
      exact List.takeWhile_cons_of_neg (by simp)
  have hlast : (p.text.toList.reverse.takeWhile (· ≠ '/')).reverse = p.name.toList := by
    rw [htext, List.reverse_append, List.takeWhile_append_of_pos hname, hrest, List.append_nil,
      List.reverse_reverse]
  unfold endingOf
  dsimp only
  rw [hlast]
  split
  · exact .inl rfl
  · exact .inr rfl

/-- A file of records is not packed: the ending of its name is that of records. -/
theorem ofLocation?_of_records {p : Path} (hp : p.WellFormed)
    (h : p.suffix = ".jsonl" ∨ p.suffix = ".ndjson") : ofLocation? p.text = none := by
  have hne : p.parts ≠ [] := Save.parts_ne_nil (by rcases h with h | h <;> rw [h] <;> decide)
  have hsuffix : p.suffix = String.ofList (('.' :: afterDot p.name.toList).map Char.toLower) := by
    have hsome : p.suffix ≠ "" := by rcases h with h | h <;> rw [h] <;> decide
    unfold Path.suffix Path.suffixOf at hsome ⊢
    dsimp only at hsome ⊢
    split at hsome
    · exact absurd rfl hsome
    · rw [if_neg ‹_›]
      rfl
  have hendings : ∀ ending ∈ endings, ending.1 ≠ "" ∧
      String.ofList (ending.1.toList.map Char.toLower) ∉ [".jsonl", ".ndjson"] := by decide
  refine List.lookup_eq_none_iff.2 fun ending hending => ?_
  obtain ⟨hsome, hother⟩ := hendings ending hending
  rw [bne_iff_ne]
  rcases endingOf_text hp hne with hnone | hlast
  · rw [hnone]
    exact hsome.symm
  · rintro heq
    rw [← heq, hlast, String.toList_ofList, ← hsuffix] at hother
    exact hother (by simpa using h)

end Packing

/-! ## Arrays under another name -/

/-- A name with some text behind it leads to another place. -/
theorem Files.Tree.next?_append {there : List String} {name ending : String}
    (hname : name ≠ ".." ∧ name ≠ ".") (hending : 0 < ending.length)
    (hends : name ++ ending ≠ ".." ∧ name ++ ending ≠ ".") {at_ : List String}
    (h : next? there (name ++ ending) = some at_) : next? there name ≠ some at_ := by
  unfold next? at h ⊢
  rw [if_neg hends.1, if_neg hends.2] at h
  rw [if_neg hname.1, if_neg hname.2]
  split at h
  · cases h
  · obtain rfl := Option.some.inj h
    split
    · exact nofun
    · intro heq
      have hlast := List.append_cancel_left (Option.some.inj heq)
      have hlength := congrArg String.length (List.singleton_inj.1 hlast)
      rw [String.length_append] at hlength
      omega

/-- An array that is written under another name leaves what is read under its own. -/
theorem Load.points_put_of_extend [Machine] {p : Path} (hp : p.WellFormed)
    (harray : p.suffix = Save.arraySuffix) {made : Tree} {at_ : List String}
    (hwritable : made.WritableAt (p.extend Save.arraySuffix).text at_) (c : Content)
    (column : Value) : points (made.put at_ c) p column = points made p column := by
  have hne : p.parts ≠ [] := Save.parts_ne_nil (by rw [harray]; decide)
  have hname : p.name ≠ ".." ∧ p.name ≠ "." := by
    constructor <;> intro heq <;> rw [Path.suffix, heq] at harray <;> exact absurd harray (by decide)
  have hends : p.name ++ Save.arraySuffix ≠ ".." ∧ p.name ++ Save.arraySuffix ≠ "." := by
    have hlength := String.length_append p.name Save.arraySuffix
    have hfour : Save.arraySuffix.length = 4 := by decide
    have htwo : "..".length = 2 := by decide
    have hone : ".".length = 1 := by decide
    constructor <;> intro heq <;> rw [heq] at hlength <;> omega
  have hslash : '/' ∉ Save.arraySuffix.toList := by decide
  obtain ⟨front, hsteps, hextended⟩ := hp.stepsOf_extend hne hslash
  obtain ⟨xs, step, there, hway, hwalk, hnext⟩ := hwritable.way
  rw [hextended] at hway
  obtain ⟨rfl, hstep⟩ := List.append_inj' hway rfl
  obtain rfl := List.singleton_inj.1 hstep
  -- both names are looked for in one directory, and they are not the same
  have hread : (made.put at_ c).read p.text = made.read p.text :=
    Tree.read_put_of_ne hsteps hwalk (Tree.next?_append hname (by decide) hends hnext)
  unfold points contents
  rw [formOf_array harray, hread]

/-! ## There and back -/

namespace Save

/-- The text of a table: its header and its rows. -/
def textOf (metadata : List (String × Value)) (data : Tensor Float) : String :=
  Table.headerText (header metadata) ++ Table.rowsText data.rowLists

/-- From the path points come back: it is not one of records, the suffix of arrays is in small
    letters, and nothing of the header is taken for points. -/
structure Returns (p : Path) (metadata : List (String × Value)) : Prop where
  array : p.suffix = arraySuffix → p.text.endsWith arraySuffix = true
  records : p.suffix ≠ ".jsonl" ∧ p.suffix ≠ ".ndjson"
  header : p.suffix ≠ arraySuffix → Table.Silent (header metadata)

section Back

variable {p : Path} {made : Tree} {at_ : List String} {data : Tensor Float} {n width : Nat}
  {metadata : List (String × Value)} (hp : p.WellFormed) (hwritable : made.WritableAt (target p) at_)
  (hshape : data.shape = [n, width]) (hn : 0 < n) (hwidth : 0 < width)

include hshape in
theorem length_of_mem_rowLists : ∀ xs ∈ data.rowLists, xs.length = width := by
  intro xs hxs
  rw [Tensor.length_of_mem_rowLists hshape hxs]
  simp [Shape.size]

include hshape hn in
theorem rowLists_ne_nil : data.rowLists ≠ [] := by
  rw [ne_eq, Tensor.rowLists_eq_nil_iff hshape]
  exact Nat.ne_of_gt hn

include hp hwritable hshape hn hwidth

/-- Under a silent header a table is loaded row for row. -/
theorem table_load [Machine] (harray : p.suffix ≠ arraySuffix)
    (hrecords : p.suffix ≠ ".jsonl" ∧ p.suffix ≠ ".ndjson")
    (hheader : Table.Silent (header metadata))
    (hroom : Packing.HasRoom p.text (textOf metadata data)) (column : Value) :
    Load.points (made.put at_ (contentOf p data (textOf metadata data))) p column
      = .ok (.ofRowLists [width] (data.rowLists.map fun xs => xs.map Table.reread)) := by
  obtain ⟨htarget, -⟩ := (agrees_iff hp).2 ⟨fun h => absurd h harray, hrecords⟩
  rw [htarget] at hwritable
  have hcontents := Load.contents_of_table (Load.formOf_table harray hrecords)
    hwritable.isOccupied_put hwritable.read_put hroom column
  rw [contentOf, if_neg harray, Load.points_of_contents_eq hcontents, textOf,
    Table.ofLines_text (length_of_mem_rowLists hshape) hwidth (rowLists_ne_nil hshape hn) hheader]
  rfl

/-- Points are loaded from a path from which they come back. -/
theorem points_load [Machine] (hroom : Packing.HasRoom p.text (textOf metadata data))
    (hreturns : Returns p metadata) (column : Value) : ∃ t,
      Load.points (made.put at_ (contentOf p data (textOf metadata data))) p column = .ok t ∧
        t.shape = [n, width] := by
  by_cases harray : p.suffix = arraySuffix
  · obtain ⟨htarget, -⟩ := (agrees_iff hp).2 ⟨hreturns.array, hreturns.records⟩
    rw [htarget] at hwritable
    rw [contentOf, if_pos harray]
    exact Load.points_of_array (Load.formOf_array harray) hwritable.read_put hshape column
  · refine ⟨_, table_load hp hwritable hshape hn hwidth harray hreturns.records
      (hreturns.header harray) hroom column, ?_⟩
    exact Tensor.length_rowLists hshape ▸ Table.shape_reread (length_of_mem_rowLists hshape)

/-- A table is no series of records. -/
theorem points_of_records [Machine] (hrecords : p.suffix = ".jsonl" ∨ p.suffix = ".ndjson")
    (column : Value) :
    ∃ f, Load.points (made.put at_ (contentOf p data (textOf metadata data))) p column
      = .error f := by
  have harray : p.suffix ≠ arraySuffix := by rcases hrecords with h | h <;> rw [h] <;> decide
  obtain ⟨first, line, lines, hlines, hmarks, hblank⟩ := Table.exists_first_line
    (length_of_mem_rowLists hshape) hwidth (rowLists_ne_nil hshape hn) (header metadata)
  have hcontent : Lines.ofContent (Packing.textContent p.text (textOf metadata data))
      = .ok ((first :: line) :: lines) := by
    rw [Packing.textContent, Packing.ofLocation?_of_records hp hrecords, ← hlines]
    rfl
  rw [target, if_neg harray] at hwritable
  rw [contentOf, if_neg harray]
  exact Load.points_of_records (Load.formOf_records hrecords) hwritable.read_put hcontent hmarks
    hblank column

omit hshape hn hwidth in
/-- An array under another name leaves nothing to read under its own, if nothing stood there. -/
theorem points_of_capitals [Machine] (harray : p.suffix = arraySuffix)
    (hending : ¬ p.text.endsWith arraySuffix = true) (hvacant : made.isOccupied p.text = false)
    (c : Content) (column : Value) : ∃ f, Load.points (made.put at_ c) p column = .error f := by
  obtain ⟨fault, hfault⟩ := Tree.exists_read_eq_error hvacant
  have hcontents : Load.contents made p column = .error (.file fault) := by
    unfold Load.contents
    rw [Load.formOf_array harray, hfault]
    rfl
  rw [target, if_pos harray, arrayPath, if_neg hending] at hwritable
  rw [Load.points_put_of_extend hp harray hwritable, Load.points, hcontents]
  exact ⟨_, rfl⟩

/-- If points are loaded from a path at which nothing stood before, it is one from which they come
    back. -/
theorem returns_of_points_load [Machine] (hroom : Packing.HasRoom p.text (textOf metadata data))
    (hvacant : made.isOccupied p.text = false) {column : Value} {t : Tensor Float}
    (ht : Load.points (made.put at_ (contentOf p data (textOf metadata data))) p column = .ok t)
    (htshape : t.shape = [n, width]) : Returns p metadata := by
  have hrecords : p.suffix ≠ ".jsonl" ∧ p.suffix ≠ ".ndjson" := by
    by_contra hrecords
    rw [not_and_or, not_not, not_not] at hrecords
    have hnone : ∃ f, Load.points (made.put at_ (contentOf p data (textOf metadata data))) p column
        = .error f := points_of_records hp hwritable hshape hn hwidth hrecords column
    obtain ⟨f, hf⟩ := hnone
    rw [hf] at ht
    cases ht
  refine ⟨fun harray => ?_, hrecords, fun harray => ?_⟩
  · by_contra hending
    obtain ⟨f, hf⟩ := points_of_capitals hp hwritable harray hending hvacant
      (contentOf p data (textOf metadata data)) column
    rw [hf] at ht
    cases ht
  · -- a matrix with as many rows has none from its header
    rw [target, if_neg harray] at hwritable
    rw [contentOf, if_neg harray] at ht
    have hcontents := Load.contents_of_table (Load.formOf_table harray hrecords)
      hwritable.isOccupied_put hwritable.read_put hroom column
    have hcount : t.rowTotal = data.rowLists.length :=
      (Tensor.rowTotal_of_shape htshape).trans (Tensor.length_rowLists hshape).symm
    rw [Load.points_of_contents_eq hcontents, ofOperands_eq_ok] at ht
    exact Table.silent_of_ofLines (length_of_mem_rowLists hshape) hwidth (rowLists_ne_nil hshape hn)
      ht hcount

end Back

end Save

/-- Points that have been saved are loaded from the same path, as a matrix of the same shape, if
    writer and reader agree on the path and the header is silent. They agree but on two kinds of
    paths: an array whose suffix is not in small letters is written to another file, and a table is
    written where records are read. Nothing is then loaded in the shape of the points, unless it
    stood there before. -/
theorem saved_points_come_back [Machine] {location : String} {tree made emptied : Tree} {c : Content}
    (hmade : tree.makeDirectories (Path.ofText location).parent = .ok made)
    (hwritten : made.write (Save.target (.ofText location)) c = .ok emptied)
    {data : Tensor Float} {n width : Nat} (hshape : data.shape = [n, width]) (hn : 0 < n)
    (hwidth : 0 < width) {metadata : List (String × Value)}
    (hheader : ∀ c ∈ (Save.header metadata).toList, Text.unpaired? c = none)
    (hroom : Packing.HasRoom (Path.ofText location).text (Save.textOf metadata data))
    (column : Value) :
    ∃ after, Save.points tree (.ofText location) data metadata = (.ok (), after) ∧
      (Save.Returns (.ofText location) metadata → Save.Agrees (.ofText location) ∧
        ∃ t, Load.points after (.ofText location) column = .ok t ∧ t.shape = [n, width]) ∧
      (made.isOccupied (Path.ofText location).text = false →
        (∃ t, Load.points after (.ofText location) column = .ok t ∧ t.shape = [n, width]) →
        Save.Returns (.ofText location) metadata) := by
  have hp := Path.wellFormed_ofText location
  obtain ⟨at_, hwritable, -⟩ := Tree.write_eq_ok.1 hwritten
  have htext : Save.tableText metadata data = .ok (Save.textOf metadata data) :=
    Save.tableText_of_paired hheader hshape
  refine ⟨_, Save.points_of_writable hmade hwritable fun _ => htext, fun hreturns => ?_, ?_⟩
  · have hagrees := (Save.agrees_iff hp).2 ⟨hreturns.array, hreturns.records⟩
    exact ⟨hagrees, Save.points_load hp hwritable hshape hn hwidth hroom hreturns column⟩
  · rintro hvacant ⟨t, ht, htshape⟩
    exact Save.returns_of_points_load hp hwritable hshape hn hwidth hroom hvacant ht htshape

namespace Save.Sample

/-- A directory without files. -/
def place : Tree := ⟨[[]], []⟩

def metadata : List (String × Value) := [("N", .int 1), ("seed", .int 42)]

def data : Tensor Float := ⟨[1, 2], [1, 2.5], rfl⟩

/-- The directory is there already. -/
theorem makeDirectories_place : place.makeDirectories ⟨"", []⟩ = .ok place := by
  have htext : Path.text ⟨"", []⟩ = "." := by decide +kernel
  have hfault : Path.faultOf? "." = none := by decide +kernel
  have hsteps : Path.stepsOf "." = ["."] := by decide +kernel
  have hmake : place.makeDirectory "." = .error (.alreadyExists ".") := by
    rw [Tree.makeDirectory, hfault]
    dsimp only
    rw [hsteps]
    rfl
  have hlook : place.look "." = .ok .directory := by
    rw [Tree.look, hfault, Tree.find, hsteps]
    rfl
  rw [Tree.makeDirectories, List.length_nil, Tree.makeUpTo, htext, hmake]
  unfold Tree.orStanding
  rw [hlook]

/-- A name can be written, for nothing is there yet. -/
theorem writableAt_place {name : String} (hfault : Path.faultOf? name = none)
    (hsteps : Path.stepsOf name = [name]) (hslash : name.endsWith "/" = false)
    (hup : name ≠ "..") (hnext : Tree.next? [] name = some [name]) :
    place.WritableAt name [name] where
  path := hfault
  plain := hslash
  way := ⟨[], name, [], hsteps, rfl, hnext⟩
  vacant := by simp [Tree.isDirectory, place, hup]

end Save.Sample

/-- A table comes back. -/
theorem saved_points_come_back_sample :
    ∃ after, Save.points Save.Sample.place (.ofText "b.txt") Save.Sample.data Save.Sample.metadata
        = (.ok (), after) ∧ Save.Agrees (.ofText "b.txt") ∧
      ∃ t, Load.points after (.ofText "b.txt") (.text "features") = .ok t ∧ t.shape = [1, 2] := by
  have hparent : (Path.ofText "b.txt").parent = ⟨"", []⟩ := by decide +kernel
  have htext : (Path.ofText "b.txt").text = "b.txt" := by decide +kernel
  have hsuffix : (Path.ofText "b.txt").suffix = ".txt" := by decide +kernel
  have hmade : Save.Sample.place.makeDirectories (Path.ofText "b.txt").parent
      = .ok Save.Sample.place := hparent ▸ Save.Sample.makeDirectories_place
  have htarget : Save.target (Path.ofText "b.txt") = "b.txt" := by
    rw [Save.target, hsuffix, if_neg (by decide), htext]
  have hwritten : Save.Sample.place.write (Save.target (Path.ofText "b.txt")) (.text "")
      = .ok (Save.Sample.place.put ["b.txt"] (.text "")) := by
    rw [htarget]
    exact Tree.write_eq_ok.2 ⟨_, Save.Sample.writableAt_place (by decide +kernel)
      (by decide +kernel) (by decide +kernel) (by decide) (by decide +kernel), rfl⟩
  have hheader : Save.header Save.Sample.metadata = "N=1 seed=42" := by decide +kernel
  have hpaired : ∀ c ∈ (Save.header Save.Sample.metadata).toList, Text.unpaired? c = none := by
    have hascii : Text.IsAscii (Save.header Save.Sample.metadata) := by
      rw [hheader]
      decide +kernel
    exact fun c hc => Text.unpaired?_of_ascii (hascii c hc)
  have hreturns : Save.Returns (Path.ofText "b.txt") Save.Sample.metadata := by
    refine ⟨fun harray => ?_, ?_, fun _ => Table.silent_of_no_return ?_⟩
    · rw [hsuffix] at harray
      exact absurd harray (by decide)
    · rw [hsuffix]
      decide
    · rw [hheader]
      decide +kernel
  have hplain : Packing.ofLocation? "b.txt" = none := by decide +kernel
  have hroom : Packing.HasRoom (Path.ofText "b.txt").text
      (Save.textOf Save.Sample.metadata Save.Sample.data) := by
    intro hpacking
    rw [htext, hplain] at hpacking
    cases hpacking
  have hshape : Save.Sample.data.shape = [1, 2] := rfl
  obtain ⟨after, hsaved, hback, -⟩ := saved_points_come_back hmade hwritten hshape (by decide)
    (by decide) hpaired hroom (.text "features")
  exact ⟨after, hsaved, hback hreturns⟩

/-- An array whose suffix is in capital letters is not found where it was to be written. -/
theorem capital_suffix_is_not_found :
    ∃ after, Save.points Save.Sample.place (.ofText "c.NPY") Save.Sample.data Save.Sample.metadata
        = (.ok (), after) ∧
      after.read "c.NPY.npy" = .ok (.array (.binary .double) Save.Sample.data) ∧
      Load.points after (.ofText "c.NPY") (.text "features")
        = .error (.file (.notFound "c.NPY")) := by
  have hparent : (Path.ofText "c.NPY").parent = ⟨"", []⟩ := by decide +kernel
  have htext : (Path.ofText "c.NPY").text = "c.NPY" := by decide +kernel
  have hsuffix : (Path.ofText "c.NPY").suffix = Save.arraySuffix := by decide +kernel
  have hmade : Save.Sample.place.makeDirectories (Path.ofText "c.NPY").parent
      = .ok Save.Sample.place := hparent ▸ Save.Sample.makeDirectories_place
  have htarget : Save.target (Path.ofText "c.NPY") = "c.NPY.npy" := by
    rw [Save.target, if_pos hsuffix]
    decide +kernel
  have hwritable : Save.Sample.place.WritableAt (Save.target (Path.ofText "c.NPY")) ["c.NPY.npy"] := by
    rw [htarget]
    exact Save.Sample.writableAt_place (by decide +kernel) (by decide +kernel) (by decide +kernel)
      (by decide) (by decide +kernel)
  have htable : (Path.ofText "c.NPY").suffix ≠ Save.arraySuffix →
      Save.tableText Save.Sample.metadata Save.Sample.data = .ok "" := absurd hsuffix
  have hsaved := Save.points_of_writable hmade hwritable htable
  rw [Save.contentOf, if_pos hsuffix] at hsaved
  have hfault : Path.faultOf? "c.NPY" = none := by decide +kernel
  have hsteps : Path.stepsOf "c.NPY" = ["c.NPY"] := by decide +kernel
  refine ⟨_, hsaved, ?_, ?_⟩
  · exact htarget ▸ hwritable.read_put
  · have hread : Tree.read (Save.Sample.place.put ["c.NPY.npy"]
        (.array (.binary .double) Save.Sample.data)) (Path.ofText "c.NPY").text
        = .error (.notFound "c.NPY") := by
      rw [htext, Tree.read, Tree.look, hfault, Tree.find, hsteps]
      rfl
    unfold Load.points Load.contents
    rw [Load.formOf_array hsuffix, hread]
    rfl

end ClusterRounds
