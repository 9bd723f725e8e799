/-
  ClusterRounds.Proofs.Rereading

  Tables that are written and read. The text of every double is a word without blanks, from
  which a double is read (`plainFloat?_numberText`), so a line of them is cut into the same
  words, and the text of a matrix into the same lines. What stands in front of the rows is a
  comment, unless a carriage return in the header starts a line of its own: `Silent` says that
  nothing on the lines of a header is read, and without carriage returns that is so.
-/

import ClusterRounds.Proofs.Numerals
import ClusterRounds.Proofs.Tensor
import Mathlib.Data.List.TakeWhile

namespace ClusterRounds

open Number Text

/-! ## Numbers -/

namespace Number

/-- All characters are decimal digits. -/
def AllDigits (cs : List Char) : Prop := ∀ c ∈ cs, c.isDigit = true

theorem allDigits_toDigits (n : Nat) : AllDigits (Nat.toDigits 10 n) := fun _ hc =>
  Nat.isDigit_of_mem_toDigits (by decide) (by decide) hc

theorem allDigits_paddedDigits (width n : Nat) : AllDigits (paddedDigits width n).toList := by
  intro c hc
  rw [paddedDigits, String.toList_ofList, List.mem_append] at hc
  rcases hc with hc | hc
  · rw [List.eq_of_mem_replicate hc]
    rfl
  · exact allDigits_toDigits n c hc

theorem length_paddedDigits (width n : Nat) : width ≤ (paddedDigits width n).toList.length := by
  rw [paddedDigits, String.toList_ofList, List.length_append, List.length_replicate]
  omega

theorem AllDigits.takeWhile_append {cs : List Char} (h : AllDigits cs) (rest : List Char)
    (hrest : ∀ c ∈ rest.head?, c.isDigit = false) :
    (cs ++ rest).takeWhile Char.isDigit = cs ∧ (cs ++ rest).dropWhile Char.isDigit = rest := by
  induction cs with
  | nil =>
    cases rest with
    | nil => exact ⟨rfl, rfl⟩
    | cons c rest =>
      have hc := hrest c rfl
      simp [hc]
  | cons c cs ih =>
    have hc := h c List.mem_cons_self
    obtain ⟨htake, hdrop⟩ := ih fun d hd => h d (List.mem_cons_of_mem _ hd)
    simp [hc, htake, hdrop]

/-- A text with a minus in front, if it is negative. -/
def signed (negative : Bool) (cs : List Char) : List Char := if negative then '-' :: cs else cs

theorem toList_specialText (negative : Bool) (name : String) :
    (specialText negative name).toList = signed negative name.toList := by
  cases negative <;> simp [specialText, signed]

/-- The texts of doubles: a name, or digits with a point behind the first one and an exponent. -/
inductive Word : List Char → Prop
  | undefined : Word ['n', 'a', 'n']
  | infinite (negative : Bool) : Word (signed negative ['i', 'n', 'f'])
  | finite (negative : Bool) {d sign : Char} {rest exponent : List Char}
      (digits : AllDigits (d :: rest)) (sign_eq : sign = '-' ∨ sign = '+')
      (exponent_digits : AllDigits exponent) (exponent_ne : exponent ≠ []) :
      Word (signed negative (d :: '.' :: (rest ++ 'e' :: sign :: exponent)))

theorem word_scientific {places : Nat} (hplaces : 0 < places) (p : Parts) :
    Word (p.scientific places).toList := by
  unfold Parts.scientific
  split
  · exact .undefined
  · rw [toList_specialText]
    exact .infinite _
  · rename_i negative m e
    dsimp only
    generalize decimalOf places (ratioOf m e).1 (ratioOf m e).2 = decimal
    rw [toList_specialText]
    have hdigits := allDigits_paddedDigits (places + 1) decimal.digits
    have hlength := length_paddedDigits (places + 1) decimal.digits
    have hexponent := length_paddedDigits 2 decimal.exponent.natAbs
    unfold pointAfterFirst
    split
    · rename_i hnil
      rw [hnil] at hlength
      exact absurd hlength (by simp)
    · rename_i d hd
      rw [hd] at hlength
      exact absurd hlength (by simp; omega)
    · rename_i d rest _ hd
      rw [hd] at hdigits
      obtain ⟨sign, hsign, htext⟩ : ∃ sign, (sign = '-' ∨ sign = '+') ∧
          (exponentText decimal.exponent).toList
            = sign :: (paddedDigits 2 decimal.exponent.natAbs).toList := by
        unfold exponentText
        split
        · exact ⟨'-', .inl rfl, by simp⟩
        · exact ⟨'+', .inr rfl, by simp⟩
      have hne : (paddedDigits 2 decimal.exponent.natAbs).toList ≠ [] := by
        intro hnil
        rw [hnil] at hexponent
        exact absurd hexponent (by simp)
      have hword := Word.finite negative hdigits hsign (allDigits_paddedDigits _ _) hne
      simpa [htext] using hword

variable {cs : List Char}

/-- A word begins with a character of its own. -/
theorem Word.ne_nil (h : Word cs) : cs ≠ [] := by
  cases h with
  | undefined => simp
  | infinite negative => cases negative <;> simp [signed]
  | finite negative => cases negative <;> simp [signed]

theorem toLower_of_isDigit {c : Char} (h : c.isDigit = true) : c.toLower = c := by
  obtain ⟨-, hle⟩ := Char.isDigit_iff_toNat.1 h
  unfold Char.toLower
  rw [dif_neg]
  rintro ⟨hge, -⟩
  exact absurd (Nat.le_trans hge hle) (by decide)

theorem takeSign_signed (negative : Bool) {d : Char} (hd : d.isDigit = true) (cs : List Char) :
    takeSign (signed negative (d :: cs)) = (negative, d :: cs) := by
  cases negative with
  | true => rfl
  | false =>
    have hminus : d ≠ '-' := by rintro rfl; simp at hd
    have hplus : d ≠ '+' := by rintro rfl; simp at hd
    unfold takeSign signed
    simp [hminus, hplus]

theorem exists_exponentPart {sign : Char} {digits : List Char} (hsign : sign = '-' ∨ sign = '+')
    (hdigits : AllDigits digits) (hne : digits ≠ []) :
    ∃ e, exponentPart? ('e' :: sign :: digits) = some e := by
  have htake : takeSign (sign :: digits) = (decide (sign = '-'), digits) := by
    rcases hsign with rfl | rfl <;> rfl
  have hall : digits.all Char.isDigit = true := List.all_eq_true.2 hdigits
  rw [exponentPart?, htake]
  simp [hall, hne]

/-- What begins with a digit is none of the names, and so it is read as a numeral. -/
theorem plainFloat?_signed (negative : Bool) {d : Char} (hd : d.isDigit = true) (cs : List Char) :
    plainFloat? (signed negative (d :: cs))
      = (numeral? negative (d :: cs)).map Numeral.toFloat := by
  have hname (name : String) (hc : name.toList.head?.any Char.isDigit = false) :
      (d :: cs).map Char.toLower ≠ name.toList := by
    intro heq
    rw [← heq, List.map_cons, toLower_of_isDigit hd, List.head?_cons, Option.any_some, hd] at hc
    cases hc
  rw [plainFloat?, takeSign_signed negative hd]
  dsimp only
  rw [if_neg (hname "nan" (by decide)), if_neg]
  rw [Bool.or_eq_true, decide_eq_true_eq, decide_eq_true_eq]
  exact fun h => h.elim (hname "inf" (by decide)) (hname "infinity" (by decide))

/-- A double is read from every word. -/
theorem Word.exists_plainFloat (h : Word cs) : ∃ x, plainFloat? cs = some x := by
  cases h with
  | undefined => exact ⟨_, rfl⟩
  | infinite negative => cases negative <;> exact ⟨_, rfl⟩
  | @finite negative d sign rest exponent hdigits hsign hexponent hne =>
    have hd := hdigits d List.mem_cons_self
    have hrest : AllDigits rest := fun c hc => hdigits c (List.mem_cons_of_mem _ hc)
    obtain ⟨e, he⟩ := exists_exponentPart hsign hexponent hne
    obtain ⟨htake, hdrop⟩ := hrest.takeWhile_append ('e' :: sign :: exponent) (by simp)
    have hnumeral : numeral? negative (d :: '.' :: (rest ++ 'e' :: sign :: exponent))
        = some ⟨negative, digitsValue (d :: rest), e - rest.length⟩ := by
      simp [numeral?, hd, htake, hdrop, he]
    rw [plainFloat?_signed negative hd, hnumeral]
    exact ⟨_, rfl⟩

/-- The character neither separates fields nor starts a comment, nor does a document of more than a
    number begin with it. -/
def IsPlain (c : Char) : Prop := isBlank c = false ∧ c ∉ ['#', '"', '[', '\x7b']

instance (c : Char) : Decidable (IsPlain c) := inferInstanceAs (Decidable (_ ∧ _))

theorem isPlain_of_isDigit {c : Char} (h : c.isDigit = true) : IsPlain c := by
  obtain ⟨hge, hle⟩ := Char.isDigit_iff_toNat.1 h
  have hblank : ∀ n < 58, 48 ≤ n → inRanges blankRanges n = false := by decide
  have hothers : ∀ d ∈ ['#', '"', '[', '\x7b'], d.isDigit = false := by simp
  refine ⟨hblank _ (Nat.lt_succ_of_le hle) hge, fun hc => ?_⟩
  rw [hothers c hc] at h
  cases h

theorem Word.isPlain (h : Word cs) : ∀ c ∈ cs, IsPlain c := by
  have hsigned {negative : Bool} {body : List Char} (hbody : ∀ c ∈ body, IsPlain c) :
      ∀ c ∈ signed negative body, IsPlain c := by
    cases negative with
    | false => exact hbody
    | true => exact List.forall_mem_cons.2 ⟨by decide, hbody⟩
  cases h with
  | undefined =>
    simp only [List.mem_cons, List.not_mem_nil, or_false, forall_eq_or_imp, forall_eq]
    decide
  | infinite negative =>
    refine hsigned ?_
    simp only [List.mem_cons, List.not_mem_nil, or_false, forall_eq_or_imp, forall_eq]
    decide
  | finite negative hdigits hsign hexponent hne =>
    refine hsigned fun c hc => ?_
    simp only [List.mem_cons, List.mem_append] at hc
    rcases hc with rfl | rfl | hc | rfl | rfl | hc
    · exact isPlain_of_isDigit (hdigits _ List.mem_cons_self)
    · decide
    · exact isPlain_of_isDigit (hdigits c (List.mem_cons_of_mem _ hc))
    · decide
    · rcases hsign with rfl | rfl <;> decide
    · exact isPlain_of_isDigit (hexponent c hc)

end Number

/-! ## Rows -/

namespace Table

theorem word_numberText (x : Float) : Word (numberText x).toList := word_scientific (by decide) _

/-- The double that is read from the text of a double. -/
def reread (x : Float) : Float := (plainFloat? (numberText x).toList).getD x

theorem plainFloat?_numberText (x : Float) :
    plainFloat? (numberText x).toList = some (reread x) := by
  obtain ⟨y, hy⟩ := (word_numberText x).exists_plainFloat
  rw [reread, hy, Option.getD_some]

/-- A word in front of a blank, or at the end of a line, is a field. -/
theorem fields_append (rest : List Char) (hrest : ∀ c ∈ rest.head?, isBlank c = true) :
    ∀ {cs : List Char}, cs ≠ [] → (∀ c ∈ cs, isBlank c = false) →
      fields (cs ++ rest) = cs :: fields rest
  | [c], _, h => by
    have hc := h c List.mem_cons_self
    cases rest with
    | nil => simp [fields, hc]
    | cons b rest =>
      have hb := hrest b rfl
      simp [fields, hc, hb]
  | c :: d :: cs, _, h => by
    have hc := h c List.mem_cons_self
    have hd := h d (by simp)
    have hfields := fields_append rest hrest (List.cons_ne_nil d cs)
      fun e he => h e (List.mem_cons_of_mem _ he)
    rw [List.cons_append] at hfields
    rw [List.cons_append, List.cons_append, fields, hc]
    simp only [Bool.false_eq_true, if_false, hd, hfields]

theorem fields_cons_blank {c : Char} (h : isBlank c = true) (rest : List Char) :
    fields (c :: rest) = fields rest := by
  cases rest <;> simp [fields, h]

/-- A line of words is cut into them. -/
theorem fields_intercalate : ∀ (words : List (List Char)),
    (∀ w ∈ words, w ≠ [] ∧ ∀ c ∈ w, isBlank c = false) → fields ([' '].intercalate words) = words
  | [], _ => rfl
  | [w], h => by
    obtain ⟨hne, hw⟩ := h w List.mem_cons_self
    have hfields := fields_append [] (by simp) hne hw
    simpa [fields] using hfields
  | w :: v :: words, h => by
    obtain ⟨hne, hw⟩ := h w List.mem_cons_self
    have hrest := fields_intercalate (v :: words) fun u hu => h u (List.mem_cons_of_mem _ hu)
    rw [List.intercalate_cons_cons, List.append_assoc, List.singleton_append,
      fields_append _ (by simp; decide) hne hw, fields_cons_blank (by decide), hrest]

/-- The line of a row. -/
def lineText (xs : List Float) : String := " ".intercalate (xs.map numberText)

/-- A character of a line is one of a number, or the blank between two of them. -/
theorem mem_lineText {xs : List Float} {c : Char} (h : c ∈ (lineText xs).toList) :
    c = ' ' ∨ IsPlain c := by
  rcases mem_intercalate h with h | ⟨w, hw, h⟩
  · exact .inl (List.mem_singleton.1 h)
  · obtain ⟨x, -, rfl⟩ := List.mem_map.1 hw
    exact .inr ((word_numberText x).isPlain c h)

/-- What is read from the line of a row. -/
theorem row_lineText (xs : List Float) : row (lineText xs).toList = .ok (xs.map reread) := by
  have huncommented : uncommented (lineText xs).toList = (lineText xs).toList := by
    refine List.takeWhile_eq_self_iff.2 fun c hc => decide_eq_true ?_
    rcases mem_lineText hc with rfl | hplain
    · decide
    · rintro rfl
      exact hplain.2 List.mem_cons_self
  have hfields : fields (lineText xs).toList = xs.map fun x => (numberText x).toList := by
    rw [lineText, String.toList_intercalate, List.map_map]
    refine fields_intercalate _ fun w hw => ?_
    obtain ⟨x, -, rfl⟩ := List.mem_map.1 hw
    exact ⟨(word_numberText x).ne_nil, fun c hc => ((word_numberText x).isPlain c hc).1⟩
  rw [row, huncommented, hfields, List.mapM_map]
  refine mapM_eq_ok_map fun x _ => ?_
  rw [Function.comp_apply, plainFloat?_numberText]
  rfl

end Table

/-! ## Lines -/

namespace Lines

theorem putFirst_append {c : Char} {lines : List (List Char)} (h : lines ≠ [])
    (others : List (List Char)) : putFirst c (lines ++ others) = putFirst c lines ++ others := by
  cases lines with
  | nil => exact absurd rfl h
  | cons line lines => rfl

theorem split_cons {c : Char} (h : c ≠ '\n' ∧ c ≠ '\r') (cs : List Char) :
    split (c :: cs) = putFirst c (split cs) := by
  cases cs <;> simp [split, h]

theorem split_lineFeed (cs : List Char) : split ('\n' :: cs) = [] :: split cs := by
  cases cs <;> simp [split]

theorem split_return {cs : List Char} (h : cs.head? ≠ some '\n') :
    split ('\r' :: cs) = [] :: split cs := by
  cases cs with
  | nil => simp [split]
  | cons c cs =>
    have hc : c ≠ '\n' := fun heq => h (by rw [heq]; rfl)
    simp [split, hc]

theorem putFirst_ne_nil (c : Char) (lines : List (List Char)) : putFirst c lines ≠ [] := by
  cases lines <;> simp [putFirst]

theorem split_ne_nil : ∀ {cs : List Char}, cs ≠ [] → split cs ≠ []
  | c :: cs, _ => by
    by_cases hc : c ≠ '\n' ∧ c ≠ '\r'
    · rw [split_cons hc]
      exact putFirst_ne_nil _ _
    · rw [not_and_or, not_not, not_not] at hc
      rcases hc with rfl | rfl
      · simp [split_lineFeed]
      · by_cases hcs : cs.head? = some '\n'
        · obtain ⟨rest, rfl⟩ := List.head?_eq_some_iff.1 hcs
          simp [split]
        · simp [split_return hcs]

/-- Behind a line feed a line starts, whatever is in front of it. -/
theorem split_append (cs rest : List Char) :
    split (cs ++ '\n' :: rest) = split (cs ++ ['\n']) ++ split rest := by
  -- on the cases of splitting: a return at the end takes the line feed along on both sides
  fun_induction split cs with
  | case1 => simp [split_lineFeed, split]
  | case2 cs ih => simp [split, ih]
  | case3 c cs hcs hc ih =>
    rw [Bool.or_eq_true, decide_eq_true_eq, decide_eq_true_eq] at hc
    rcases hc with rfl | rfl
    · simp [split_lineFeed, ih]
    · cases cs with
      | nil => simp [split]
      | cons d cs =>
        have hd (more : List Char) : (d :: (cs ++ more)).head? ≠ some '\n' := by
          intro heq
          cases Option.some.inj heq
          exact hcs cs rfl rfl
        simp only [List.cons_append] at ih ⊢
        rw [split_return (hd _), split_return (hd _), ih, List.cons_append]
  | case4 c cs hcs hc ih =>
    rw [Bool.or_eq_true, decide_eq_true_eq, decide_eq_true_eq, not_or] at hc
    rw [List.cons_append, List.cons_append, split_cons hc, split_cons hc, ih,
      putFirst_append (split_ne_nil (by simp))]

/-- A text that has no line ending is one line. -/
theorem split_line {cs : List Char} (h : ∀ c ∈ cs, c ≠ '\n' ∧ c ≠ '\r') (rest : List Char) :
    split (cs ++ '\n' :: rest) = cs :: split rest := by
  induction cs with
  | nil => exact split_lineFeed rest
  | cons c cs ih =>
    rw [List.cons_append, split_cons (h c List.mem_cons_self),
      ih fun d hd => h d (List.mem_cons_of_mem _ hd)]
    rfl

end Lines

/-! ## Tables -/

namespace Table

open Lines

variable {header : String} {rows : List (List Float)} {n width : Nat}

theorem split_rowsText (rows : List (List Float)) :
    split (rowsText rows).toList = rows.map fun xs => (lineText xs).toList := by
  induction rows with
  | nil => rfl
  | cons xs rows ih =>
    have htext : (rowsText (xs :: rows)).toList
        = (lineText xs).toList ++ '\n' :: (rowsText rows).toList := by
      simp [rowsText, lineText, String.toList_join]
    have hline : ∀ c ∈ (lineText xs).toList, c ≠ '\n' ∧ c ≠ '\r' := by
      intro c hc
      rcases mem_lineText hc with rfl | ⟨hblank, -⟩
      · decide
      · constructor <;> rintro rfl <;> exact absurd hblank (by decide)
    rw [htext, split_line hline, ih, List.map_cons]

/-- Behind the lines of the header there is one for each row. -/
theorem split_text (header : String) (rows : List (List Float)) :
    split (headerText header ++ rowsText rows).toList
      = split (headerText header).toList ++ rows.map fun xs => (lineText xs).toList := by
  rw [String.toList_append, ← split_rowsText]
  by_cases hempty : header.isEmpty = true
  · rw [headerText, if_pos hempty]
    rfl
  · -- the last line of the header ends
    obtain ⟨cs, hcs⟩ : ∃ cs, (headerText header).toList = cs ++ ['\n'] := by
      rw [headerText, if_neg hempty, String.toList_append]
      exact ⟨_, rfl⟩
    rw [hcs, List.append_assoc, List.singleton_append, split_append]

/-- Nothing is read from the lines of the header. -/
def Silent (header : String) : Prop :=
  ∀ line ∈ split (headerText header).toList, row line = .ok []

theorem row_of_comment (cs : List Char) : row ('#' :: cs) = .ok [] := by
  rw [row, uncommented, List.takeWhile_cons_of_neg (by decide)]
  rfl

/-- The characters of a header, with a comment started behind every line feed. -/
def commented (cs : List Char) : List Char :=
  cs.flatMap fun c => if c = '\n' then ['\n', '#', ' '] else [c]

theorem toList_headerText (h : header.isEmpty = false) :
    (headerText header).toList = '#' :: ' ' :: commented header.toList ++ ['\n'] := by
  have hcommented : ∀ c : Char, (if c = '\n' then "\n# " else String.singleton c).toList
      = if c = '\n' then ['\n', '#', ' '] else [c] := by
    intro c
    split <;> simp
  simp [headerText, h, String.toList_join, List.flatMap_map, hcommented, commented]

/-- What stands behind the start of a comment is one on every line. -/
theorem row_of_mem_commented : ∀ (cs front : List Char), '\r' ∉ cs →
    (∀ c ∈ front, c ≠ '\n' ∧ c ≠ '\r') →
      ∀ line ∈ split ('#' :: front ++ commented cs ++ ['\n']), row line = .ok []
  | [], front, _, hfront, line, hline => by
    have hcomment : ∀ c ∈ '#' :: front, c ≠ '\n' ∧ c ≠ '\r' :=
      List.forall_mem_cons.2 ⟨by decide, hfront⟩
    rw [commented, List.flatMap_nil, List.append_nil, split_line hcomment] at hline
    rw [List.mem_singleton.1 hline]
    exact row_of_comment front
  | c :: cs, front, hcs, hfront, line, hline => by
    rw [List.mem_cons, not_or] at hcs
    rw [commented, List.flatMap_cons] at hline
    by_cases hc : c = '\n'
    · have hcomment : ∀ c ∈ '#' :: front, c ≠ '\n' ∧ c ≠ '\r' :=
        List.forall_mem_cons.2 ⟨by decide, hfront⟩
      have htext : '#' :: front ++ (['\n', '#', ' '] ++ commented cs) ++ ['\n']
          = '#' :: front ++ '\n' :: ('#' :: [' '] ++ commented cs ++ ['\n']) := by simp
      rw [if_pos hc] at hline
      change line ∈ split ('#' :: front ++ (['\n', '#', ' '] ++ commented cs) ++ ['\n']) at hline
      rw [htext, split_line hcomment] at hline
      rcases List.mem_cons.1 hline with rfl | hline
      · exact row_of_comment front
      · exact row_of_mem_commented cs [' '] hcs.2 (by simp) line hline
    · rw [if_neg hc] at hline
      refine row_of_mem_commented cs (front ++ [c]) hcs.2 ?_ line (by simpa [commented] using hline)
      rw [List.forall_mem_append]
      exact ⟨hfront, List.forall_mem_singleton.2 ⟨hc, Ne.symm hcs.1⟩⟩

/-- Without carriage returns a header is a comment. -/
theorem silent_of_no_return (h : '\r' ∉ header.toList) : Silent header := by
  intro line hline
  cases hempty : header.isEmpty with
  | true =>
    rw [headerText, if_pos hempty] at hline
    exact nomatch hline
  | false =>
    rw [toList_headerText hempty] at hline
    exact row_of_mem_commented _ [' '] h (by simp) line hline

/-- What a table is: the rows on its lines that hold any numbers, all of one width, or none. -/
theorem ofLines_eq_ok {lines : List (List Char)} {t : Tensor Float} :
    ofLines lines = .ok t ↔ ∃ read, lines.mapM row = .ok read ∧
      let kept := read.filter fun r => !r.isEmpty
      (kept = [] ∧ t = ⟨[0, 1], [], rfl⟩) ∨
        (kept ≠ [] ∧ ∃ width, (∀ r ∈ kept, r.length = width) ∧ t = .ofRowLists [width] kept) := by
  unfold ofLines
  rw [bind_eq_ok]
  refine exists_congr fun read => and_congr_right fun _ => ?_
  dsimp only
  cases read.filter fun r => !r.isEmpty with
  | nil => simp [pure, Except.pure, eq_comm]
  | cons first rest =>
    have hall : (first :: rest).all (fun r => r.length = first.length) = true ↔
        ∀ r ∈ first :: rest, r.length = first.length := by
      simp only [List.all_eq_true, decide_eq_true_eq]
    show (if _ then _ else _) = _ ↔ _
    constructor
    · intro h
      split at h
      · rename_i hsame
        exact .inr ⟨List.cons_ne_nil _ _, _, hall.1 hsame, (Except.ok.inj h).symm⟩
      · cases h
    · rintro (⟨hnil, -⟩ | ⟨-, width, hwidth, rfl⟩)
      · cases hnil
      · obtain rfl := hwidth first List.mem_cons_self
        rw [if_pos (hall.2 hwidth)]
        rfl

theorem exists_shape_of_ofLines {lines : List (List Char)} {t : Tensor Float}
    (h : ofLines lines = .ok t) : ∃ n width, t.shape = [n, width] := by
  obtain ⟨read, -, ⟨-, rfl⟩ | ⟨-, width, hwidth, rfl⟩⟩ := ofLines_eq_ok.1 h
  · exact ⟨0, 1, rfl⟩
  · exact ⟨_, width, Tensor.shape_ofRowLists fun r hr => by simp [Shape.size, hwidth r hr]⟩

/-- What is read from the text of a matrix: the rows of its header, if there are any, and its own. -/
theorem mapM_row_text (header : String) (rows : List (List Float)) :
    (split (headerText header ++ rowsText rows).toList).mapM row =
      (split (headerText header).toList).mapM row >>= fun before =>
        .ok (before ++ rows.map fun xs => xs.map reread) := by
  have hrows : (rows.map fun xs => (lineText xs).toList).mapM row
      = .ok (rows.map fun xs => xs.map reread) := by
    rw [List.mapM_map]
    exact mapM_eq_ok_map fun xs _ => row_lineText xs
  rw [split_text, List.mapM_append, hrows]
  rfl

section Matrix

variable (hrows : ∀ xs ∈ rows, xs.length = width)

include hrows

theorem length_reread : ∀ r ∈ rows.map (fun xs => xs.map reread), r.length = width := by
  intro r hr
  obtain ⟨xs, hxs, rfl⟩ := List.mem_map.1 hr
  rw [List.length_map, hrows xs hxs]

theorem shape_reread : (Tensor.ofRowLists [width] (rows.map fun xs => xs.map reread)).shape
    = [rows.length, width] := by
  have hsize : ∀ r ∈ rows.map (fun xs => xs.map reread), r.length = Shape.size [width] :=
    fun r hr => (length_reread hrows r hr).trans (by simp [Shape.size])
  rw [Tensor.shape_ofRowLists hsize, List.length_map]

theorem filter_reread (hwidth : 0 < width) :
    (rows.map fun xs => xs.map reread).filter (fun r => !r.isEmpty)
      = rows.map fun xs => xs.map reread := by
  refine List.filter_eq_self.2 fun r hr => ?_
  have hlength := length_reread hrows r hr
  cases r with
  | nil => exact absurd hlength (Nat.ne_of_lt hwidth)
  | cons x xs => rfl

/-- Behind a silent header a matrix is read as one of its shape. -/
theorem ofLines_text (hwidth : 0 < width) (hne : rows ≠ []) (hheader : Silent header) :
    ofLines (split (headerText header ++ rowsText rows).toList)
      = .ok (.ofRowLists [width] (rows.map fun xs => xs.map reread)) := by
  have hbefore : (split (headerText header).toList).mapM row
      = .ok ((split (headerText header).toList).map fun _ => []) := mapM_eq_ok_map hheader
  have hnone : ((split (headerText header).toList).map fun _ => ([] : List Float)).filter
      (fun r => !r.isEmpty) = [] := by simp
  refine ofLines_eq_ok.2 ⟨_, by rw [mapM_row_text, hbefore]; rfl, .inr ?_⟩
  rw [List.filter_append, filter_reread hrows hwidth, hnone, List.nil_append]
  exact ⟨mt List.map_eq_nil_iff.1 hne, width, length_reread hrows, rfl⟩

/-- If a matrix is read as one with as many rows, its header is silent. -/
theorem silent_of_ofLines (hwidth : 0 < width) (hne : rows ≠ []) {t : Tensor Float}
    (h : ofLines (split (headerText header ++ rowsText rows).toList) = .ok t)
    (ht : t.rowTotal = rows.length) : Silent header := by
  obtain ⟨read, hread, hkept⟩ := ofLines_eq_ok.1 h
  rw [mapM_row_text] at hread
  obtain ⟨before, hbefore, hread⟩ := bind_eq_ok.1 hread
  obtain rfl := Except.ok.inj hread
  dsimp only at hkept
  rw [List.filter_append, filter_reread hrows hwidth] at hkept
  rcases hkept with ⟨hnil, -⟩ | ⟨-, w, hw, rfl⟩
  · exact absurd (List.map_eq_nil_iff.1 (List.append_eq_nil_iff.1 hnil).2) hne
  · rw [Tensor.rowTotal_of_shape (Tensor.shape_ofRowLists fun r hr => by simp [Shape.size, hw r hr]),
      List.length_append, List.length_map, Nat.add_eq_right, List.length_eq_zero_iff] at ht
    -- no row is left for the header, so each of its lines gave none
    intro line hline
    obtain ⟨i, hi⟩ := List.getElem?_of_mem hline
    obtain ⟨r, hr, hrow⟩ := mapM_eq_ok_getElem? hbefore hi
    have hempty : r.isEmpty = true := by
      simpa using List.filter_eq_nil_iff.1 ht r (List.mem_of_getElem? hr)
    rw [hrow, List.isEmpty_iff.1 hempty]

/-- No line of a text begins like a document: the first one is a comment or starts with a number. -/
theorem exists_first_line (hwidth : 0 < width) (hne : rows ≠ []) (header : String) :
    ∃ c line lines, split (headerText header ++ rowsText rows).toList = (c :: line) :: lines ∧
      c ∉ ['"', '[', '\x7b'] ∧ isBlank c = false := by
  rw [split_text]
  cases hempty : header.isEmpty with
  | false =>
    obtain ⟨line, lines, hlines⟩ : ∃ line lines,
        split (headerText header).toList = ('#' :: line) :: lines := by
      rw [toList_headerText hempty, List.cons_append, split_cons (by decide)]
      generalize split _ = others
      cases others with
      | nil => exact ⟨[], [], rfl⟩
      | cons line lines => exact ⟨line, lines, rfl⟩
    exact ⟨'#', line, _, by rw [hlines, List.cons_append], by decide, by decide⟩
  | true =>
    -- without a header the first line is that of the first row
    have hheader : split (headerText header).toList = [] := by
      rw [headerText, if_pos hempty]
      rfl
    obtain ⟨xs, rest, rfl⟩ := List.exists_cons_of_ne_nil hne
    obtain ⟨x, xs, rfl⟩ : ∃ x others, xs = x :: others :=
      List.exists_cons_of_length_pos (by rw [hrows _ List.mem_cons_self]; exact hwidth)
    obtain ⟨behind, hline⟩ : ∃ behind,
        (lineText (x :: xs)).toList = (numberText x).toList ++ behind := by
      cases xs with
      | nil => exact ⟨[], by simp [lineText]⟩
      | cons y xs => exact ⟨_, by simp [lineText, String.toList_intercalate]; rfl⟩
    have hword := word_numberText x
    obtain ⟨c, cs, hcs⟩ := List.exists_cons_of_ne_nil hword.ne_nil
    obtain ⟨hblank, hmarks⟩ := hword.isPlain c (hcs ▸ List.mem_cons_self)
    refine ⟨c, cs ++ behind, rest.map fun xs => (lineText xs).toList, ?_,
      fun hc => hmarks (List.mem_cons_of_mem _ hc), hblank⟩
    rw [hheader, List.nil_append, List.map_cons, hline, hcs, List.cons_append]

end Matrix

end Table

end ClusterRounds
