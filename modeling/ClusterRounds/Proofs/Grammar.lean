/-
  ClusterRounds.Proofs.Grammar

  The grammar of documents. `Reads` relates a text to a value in front of it and to what follows:
  it says which texts are documents, and which values they denote, without saying how they are
  read. Besides the standard productions there are the names of the special numbers; a derivation
  counts how many of them it uses, so it is a standard one if there is none.

  The reader follows the grammar (`Reads.isRead`): what is derived within its limits is read, and
  whatever else is derived is read as the same value, unless a limit is in the way. So a text
  denotes one value at most that the reader can tell.
-/

import ClusterRounds.Proofs.Outcome
import ClusterRounds.Proofs.Spelling
import ClusterRounds.Value.Json

namespace ClusterRounds.Json

open Number Text

/-! ## Spaces -/

/-- Some spaces and what follows them; there may be more of them. -/
inductive Spaces : List Char → List Char → Prop
  | done {cs : List Char} : Spaces cs cs
  | space {c : Char} {cs rest : List Char} (hc : isSpace c = true) (h : Spaces cs rest) :
      Spaces (c :: cs) rest

variable {limited : Bool} {depth k : Nat} {c : Char} {cs rest : List Char}

theorem Spaces.length_le (h : Spaces cs rest) : rest.length ≤ cs.length := by
  induction h with
  | done => exact Nat.le_refl _
  | space _ _ ih => exact Nat.le_succ_of_le ih

theorem Spaces.skipSpaces_eq (h : Spaces cs (c :: rest)) (hc : isSpace c = false) :
    skipSpaces cs = c :: rest := by
  generalize hgoal : c :: rest = goal at h
  induction h with
  | done =>
    subst hgoal
    exact List.dropWhile_cons_of_neg (by simp [hc])
  | space hspace _ ih => exact (List.dropWhile_cons_of_pos hspace).trans (ih hgoal)

theorem Spaces.skipSpaces_eq_nil (h : Spaces cs []) : skipSpaces cs = [] := by
  generalize hgoal : [] = goal at h
  induction h with
  | done =>
    subst hgoal
    rfl
  | space hspace _ ih => exact (List.dropWhile_cons_of_pos hspace).trans (ih hgoal)

/-- Values are followed by a space, by what separates or ends them, or by nothing. -/
def Follows (rest : List Char) : Prop :=
  ∀ c ∈ rest.head?, isSpace c = true ∨ c ∈ [',', ']', '\x7d']

theorem Spaces.follows (h : Spaces cs rest) (hrest : Follows rest) : Follows cs := by
  cases h with
  | done => exact hrest
  | space hc =>
    intro d hd
    obtain rfl := Option.some.inj hd
    exact .inl hc

theorem follows_cons (hc : c ∈ [',', ']', '\x7d']) : Follows (c :: rest) := by
  intro d hd
  obtain rfl := Option.some.inj hd
  exact .inr hc

/-- No number goes on there. -/
theorem Follows.head? (h : Follows rest) :
    ∀ c ∈ rest.head?, c.isDigit = false ∧ c ≠ '.' ∧ c ≠ 'e' ∧ c ≠ 'E' := by
  intro c hc
  have hmarks : ∀ d ∈ [',', ']', '\x7d'], d.isDigit = false ∧ d ≠ '.' ∧ d ≠ 'e' ∧ d ≠ 'E' := by
    simp
  rcases h c hc with hspace | hmark
  · simp only [isSpace, Bool.or_eq_true, decide_eq_true_eq] at hspace
    rcases hspace with ((rfl | rfl) | rfl) | rfl <;> decide
  · exact hmarks c hmark

/-! ## Numbers -/

/-- The digits in front of a point: a zero, or some that do not begin with one. -/
structure Whole (cs : List Char) : Prop where
  digits : AllDigits cs
  ne_nil : cs ≠ []
  leading : cs = ['0'] ∨ cs.head? ≠ some '0'

/-- A number and the value that it denotes: an integer, or the double next to it if there is a
    fraction or an exponent. Integers may be limited in length. -/
inductive Numeric (limited : Bool) : List Char → Value → Prop
  | integer (negative : Bool) {whole : List Char} (h : Whole whole)
      (short : limited = true → whole.length ≤ maxIntegerDigits) :
      Numeric limited (signed negative whole)
        (.int (if negative then -(digitsValue whole : Int) else digitsValue whole))
  | decimal (negative : Bool) {whole fraction ds exponent : List Char} {e : Int} (h : Whole whole)
      (hfraction : Fraction fraction ds) (hexponent : Exponent exponent e)
      (inexact : fraction ++ exponent ≠ []) :
      Numeric limited (signed negative (whole ++ (fraction ++ exponent)))
        (.float (Numeral.toFloat ⟨negative, digitsValue (whole ++ ds), e - ds.length⟩))

/-! ## Texts -/

/-- The rest of a text up to its closing quote, its code units, and what follows. -/
inductive Body : List Char → List Nat → List Char → Prop
  | closed {rest : List Char} : Body ('"' :: rest) [] rest
  | plain {c : Char} {cs rest : List Char} {us : List Nat} (visible : 0x20 ≤ c.toNat)
      (not_quote : c ≠ '"') (not_escape : c ≠ '\\') (h : Body cs us rest) :
      Body (c :: cs) (c.toNat :: us) rest
  | escaped {c : Char} {u : Nat} {cs rest : List Char} {us : List Nat}
      (hu : simpleEscape? c = some u) (h : Body cs us rest) : Body ('\\' :: c :: cs) (u :: us) rest
  | numbered {a b c d : Char} {u : Nat} {cs rest : List Char} {us : List Nat}
      (hu : hexUnit? a b c d = some u) (h : Body cs us rest) :
      Body ('\\' :: 'u' :: a :: b :: c :: d :: cs) (u :: us) rest

/-- The text that code units make up. -/
def textOfUnits (us : List Nat) : String := String.ofList (joinSurrogates us)

/-! ## Values -/

/-- What a stretch of a document is: a value, the items of a list up to its closing bracket, or the
    fields of a record up to its closing brace, which come to those that were known before. -/
inductive Part where
  | value (v : Value)
  | items (vs : List Value)
  | fields (known all : List (String × Value))

/-- A stretch of a document at the start of a text, so many lists and records deep, with what
    follows it, and how many names of special numbers there are in it. The depth may be limited. -/
inductive Reads (limited : Bool) : Nat → List Char → Part → List Char → Nat → Prop
  | null {depth : Nat} {rest : List Char} :
      Reads limited depth ('n' :: 'u' :: 'l' :: 'l' :: rest) (.value .null) rest 0
  | yes {depth : Nat} {rest : List Char} :
      Reads limited depth ('t' :: 'r' :: 'u' :: 'e' :: rest) (.value (.bool true)) rest 0
  | no {depth : Nat} {rest : List Char} :
      Reads limited depth ('f' :: 'a' :: 'l' :: 's' :: 'e' :: rest) (.value (.bool false)) rest 0
  | undefined {depth : Nat} {rest : List Char} :
      Reads limited depth ('N' :: 'a' :: 'N' :: rest) (.value (.float Parts.undefined.toFloat))
        rest 1
  | infinite (negative : Bool) {depth : Nat} {rest : List Char} :
      Reads limited depth
        (signed negative ('I' :: 'n' :: 'f' :: 'i' :: 'n' :: 'i' :: 't' :: 'y' :: rest))
        (.value (.float (Parts.infinite negative).toFloat)) rest 1
  | number {depth : Nat} {cs rest : List Char} {v : Value} (h : Numeric limited cs v) :
      Reads limited depth (cs ++ rest) (.value v) rest 0
  | text {depth : Nat} {cs rest : List Char} {us : List Nat} (h : Body cs us rest) :
      Reads limited depth ('"' :: cs) (.value (.text (textOfUnits us))) rest 0
  | emptyList {depth : Nat} {cs rest : List Char} (hdepth : limited = true → depth < deepest)
      (h : Spaces cs (']' :: rest)) : Reads limited depth ('[' :: cs) (.value (.list [])) rest 0
  | list {depth k : Nat} {cs cs' rest : List Char} {vs : List Value}
      (hdepth : limited = true → depth < deepest) (hspaces : Spaces cs cs')
      (h : Reads limited (depth + 1) cs' (.items vs) rest k) :
      Reads limited depth ('[' :: cs) (.value (.list vs)) rest k
  | emptyRecord {depth : Nat} {cs rest : List Char} (hdepth : limited = true → depth < deepest)
      (h : Spaces cs ('\x7d' :: rest)) :
      Reads limited depth ('\x7b' :: cs) (.value (.record [])) rest 0
  | record {depth k : Nat} {cs cs' rest : List Char} {fs : List (String × Value)}
      (hdepth : limited = true → depth < deepest) (hspaces : Spaces cs cs')
      (h : Reads limited (depth + 1) cs' (.fields [] fs) rest k) :
      Reads limited depth ('\x7b' :: cs) (.value (.record fs)) rest k
  | lastItem {depth k : Nat} {cs cs' rest : List Char} {v : Value}
      (h : Reads limited depth cs (.value v) cs' k) (hend : Spaces cs' (']' :: rest)) :
      Reads limited depth cs (.items [v]) rest k
  | item {depth k l : Nat} {cs cs₁ cs₂ cs₃ rest : List Char} {v : Value} {vs : List Value}
      (h : Reads limited depth cs (.value v) cs₁ k) (hcomma : Spaces cs₁ (',' :: cs₂))
      (hspaces : Spaces cs₂ cs₃) (hrest : Reads limited depth cs₃ (.items vs) rest l) :
      Reads limited depth cs (.items (v :: vs)) rest (k + l)
  | lastField {depth k : Nat} {cs cs₁ cs₂ cs₃ cs₄ rest : List Char} {us : List Nat} {v : Value}
      {known : List (String × Value)} (hname : Body cs us cs₁) (hcolon : Spaces cs₁ (':' :: cs₂))
      (hspaces : Spaces cs₂ cs₃) (h : Reads limited depth cs₃ (.value v) cs₄ k)
      (hend : Spaces cs₄ ('\x7d' :: rest)) :
      Reads limited depth ('"' :: cs) (.fields known (setField known (textOfUnits us) v)) rest k
  | field {depth k l : Nat} {cs cs₁ cs₂ cs₃ cs₄ cs₅ cs₆ rest : List Char} {us : List Nat}
      {v : Value} {known all : List (String × Value)} (hname : Body cs us cs₁)
      (hcolon : Spaces cs₁ (':' :: cs₂)) (hspaces : Spaces cs₂ cs₃)
      (h : Reads limited depth cs₃ (.value v) cs₄ k) (hcomma : Spaces cs₄ (',' :: cs₅))
      (hspaces' : Spaces cs₅ cs₆)
      (hrest : Reads limited depth cs₆ (.fields (setField known (textOfUnits us) v) all) rest l) :
      Reads limited depth ('"' :: cs) (.fields known all) rest (k + l)

/-- A document with spaces around its value. -/
def Denotes (limited : Bool) (cs : List Char) (v : Value) (k : Nat) : Prop :=
  ∃ start rest, Spaces cs start ∧ Reads limited 0 start (.value v) rest k ∧ Spaces rest []

/-- The text is a document of the standard grammar, which has no limits and knows no special
    numbers, and denotes the value. -/
def IsStandard (s : String) (v : Value) : Prop := Denotes false s.toList v 0

/-! ## The reader of numbers -/

theorem wholePart_append {whole : List Char} (h : Whole whole)
    (hrest : ∀ c ∈ rest.head?, c.isDigit = false) : wholePart (whole ++ rest) = (whole, rest) := by
  obtain ⟨htake, hdrop⟩ := h.digits.takeWhile_append rest hrest
  rcases h.leading with rfl | hleading
  · rfl
  · obtain ⟨d, ds, rfl⟩ := List.exists_cons_of_ne_nil h.ne_nil
    have hd : d ≠ '0' := by
      rintro rfl
      exact hleading rfl
    unfold wholePart
    split
    · rename_i heq
      exact absurd (List.cons.inj heq).1 hd
    · rw [htake, hdrop]

theorem fraction_append {fr ds : List Char} (h : Fraction fr ds)
    (hrest : ∀ c ∈ rest.head?, c.isDigit = false ∧ c ≠ '.') :
    fraction (fr ++ rest) = (fr, rest) := by
  cases h with
  | absent =>
    rw [List.nil_append]
    unfold fraction
    split
    · exact absurd rfl (hrest '.' rfl).2
    · rfl
  | present hdigits hne =>
    obtain ⟨htake, hdrop⟩ := hdigits.takeWhile_append rest fun c hc => (hrest c hc).1
    simp [fraction, htake, hdrop, hne]

theorem exponent_append {ex : List Char} {e : Int} (h : Exponent ex e) (hrest : Follows rest) :
    exponent (ex ++ rest) = (ex, rest) := by
  cases h with
  | absent =>
    rw [List.nil_append]
    cases rest with
    | nil => rfl
    | cons c rest =>
      obtain ⟨-, -, he, hE⟩ := hrest.head? c rfl
      simp [exponent, he, hE]
  | @present letter sign ds hletter hsign hdigits hne =>
    obtain ⟨htake, hdrop⟩ := hdigits.takeWhile_append rest fun c hc => (hrest.head? c hc).1
    obtain ⟨d, ds, rfl⟩ := List.exists_cons_of_ne_nil hne
    have hd := hdigits d List.mem_cons_self
    have hminus : d ≠ '-' := by rintro rfl; simp at hd
    have hplus : d ≠ '+' := by rintro rfl; simp at hd
    rw [List.cons_append] at htake hdrop
    rcases hsign with rfl | rfl | rfl
    all_goals simp [exponent, hletter, hminus, hplus, htake, hdrop]

/-! ## The reader -/

/-- The reader answers this, unless one of its limits is in the way where none counts. -/
def Meets {β : Type} (limited : Bool) (x : Except Fault β) (a : β) : Prop :=
  x = .ok a ∨ limited = false ∧ (x = .error .longInteger ∨ x = .error .deepNesting)

theorem Meets.ok {β : Type} (limited : Bool) (a : β) : Meets limited (.ok a) a := .inl rfl

theorem Meets.bind {β γ : Type} {x : Except Fault β} {a : β} {f : β → Except Fault γ} {b : γ}
    (hx : Meets limited x a) (hf : Meets limited (f a) b) : Meets limited (x >>= f) b := by
  rcases hx with rfl | ⟨hlimited, rfl | rfl⟩
  · exact hf
  · exact .inr ⟨hlimited, .inl rfl⟩
  · exact .inr ⟨hlimited, .inr rfl⟩

theorem Meets.map {β γ : Type} {x : Except Fault β} {a : β} (hx : Meets limited x a) (f : β → γ) :
    Meets limited (x.map f) (f a) := by
  rcases hx with rfl | ⟨hlimited, rfl | rfl⟩
  · exact .ok limited (f a)
  · exact .inr ⟨hlimited, .inl rfl⟩
  · exact .inr ⟨hlimited, .inr rfl⟩

theorem number?_integer (negative : Bool) {whole : List Char} (h : Whole whole)
    (hshort : limited = true → whole.length ≤ maxIntegerDigits) (hrest : Follows rest) :
    Meets limited (number? negative (whole ++ rest))
      (.int (if negative then -(digitsValue whole : Int) else digitsValue whole), rest) := by
  have hwhole := wholePart_append h fun c hc => (hrest.head? c hc).1
  have hfraction := fraction_append Fraction.absent fun c hc =>
    ⟨(hrest.head? c hc).1, (hrest.head? c hc).2.1⟩
  have hexponent := exponent_append Exponent.absent hrest
  rw [List.nil_append] at hfraction hexponent
  have hne : whole.isEmpty = false := List.isEmpty_eq_false_iff.2 h.ne_nil
  simp only [number?, hwhole, hne, hfraction, hexponent, List.isEmpty_nil, Bool.and_self, if_true,
    Bool.false_eq_true, if_false]
  split
  · rename_i hlong
    cases limited with
    | true => exact absurd (hshort rfl) (by omega)
    | false => exact .inr ⟨rfl, .inl rfl⟩
  · exact .inl rfl

theorem number?_decimal (negative : Bool) {whole fr ds ex : List Char} {e : Int} (h : Whole whole)
    (hfraction : Fraction fr ds) (hexponent : Exponent ex e) (inexact : fr ++ ex ≠ [])
    (hrest : Follows rest) :
    number? negative (whole ++ (fr ++ ex) ++ rest)
      = .ok (.float (Numeral.toFloat ⟨negative, digitsValue (whole ++ ds), e - ds.length⟩),
          rest) := by
  -- each of the three parts ends where the next one begins
  have hbehind : ∀ c ∈ (ex ++ rest).head?, c.isDigit = false ∧ c ≠ '.' := by
    cases ex with
    | nil => exact fun c hc => ⟨(hrest.head? c hc).1, (hrest.head? c hc).2.1⟩
    | cons letter ex => exact hexponent.head?
  have hwhole := wholePart_append h (hfraction.head?_append fun c hc => (hbehind c hc).1)
  have hfraction' := fraction_append hfraction hbehind
  have hexponent' := exponent_append hexponent hrest
  have hnumeral := numeral?_append negative h.digits h.ne_nil hfraction hexponent
  have hne : whole.isEmpty = false := List.isEmpty_eq_false_iff.2 h.ne_nil
  have hsome : ¬ (fr.isEmpty && ex.isEmpty) = true := by
    simpa using inexact
  rw [List.append_assoc, List.append_assoc]
  simp only [number?, hwhole, hne, hfraction', hexponent', hsome, Bool.false_eq_true, if_false,
    List.append_assoc, hnumeral]

theorem ne_of_isDigit {d : Char} (hd : d.isDigit = true) (hc : c.isDigit = false) : d ≠ c := by
  rintro rfl
  rw [hd] at hc
  cases hc

/-- What begins with a sign or a digit is read as a number. -/
theorem value?_signed (negative : Bool) {d : Char} (hd : d.isDigit = true) (depth fuel : Nat)
    (cs : List Char) :
    value? depth (fuel + 1) (signed negative (d :: cs)) = number? negative (d :: cs) := by
  have hI : d ≠ 'I' := ne_of_isDigit hd (by decide)
  cases negative with
  | true =>
    show value? depth (fuel + 1) ('-' :: d :: cs) = _
    rw [value?_eq_atom? (by decide), atom?]
    simp [hI]
  | false =>
    -- no word and no mark begins with a digit
    have hn : d ≠ 'n' := ne_of_isDigit hd (by decide)
    have ht : d ≠ 't' := ne_of_isDigit hd (by decide)
    have hf : d ≠ 'f' := ne_of_isDigit hd (by decide)
    have hN : d ≠ 'N' := ne_of_isDigit hd (by decide)
    have hminus : d ≠ '-' := ne_of_isDigit hd (by decide)
    have hmarks : d ∉ ['"', '[', '\x7b'] := by
      have hothers : ∀ c ∈ ['"', '[', '\x7b'], c.isDigit = false := by simp
      exact fun hmem => ne_of_isDigit hd (hothers d hmem) rfl
    show value? depth (fuel + 1) (d :: cs) = _
    rw [value?_eq_atom? hmarks, atom?] <;> simp [hI, hn, ht, hf, hN, hminus]

/-- A number is read up to what follows it. -/
theorem Numeric.meets {v : Value} (h : Numeric limited cs v) (hrest : Follows rest)
    (depth fuel : Nat) : Meets limited (value? depth (fuel + 1) (cs ++ rest)) (v, rest) := by
  have hsigned (negative : Bool) {whole : List Char} (hwhole : Whole whole) (behind : List Char) :
      value? depth (fuel + 1) (signed negative (whole ++ behind) ++ rest)
        = number? negative (whole ++ behind ++ rest) := by
    obtain ⟨d, ds, rfl⟩ := List.exists_cons_of_ne_nil hwhole.ne_nil
    have hread := value?_signed negative (hwhole.digits d List.mem_cons_self) depth fuel
      (ds ++ behind ++ rest)
    cases negative <;> exact hread
  cases h with
  | integer negative hwhole hshort =>
    have hread := hsigned negative hwhole []
    rw [List.append_nil] at hread
    rw [hread]
    exact number?_integer negative hwhole hshort hrest
  | decimal negative hwhole hfraction hexponent hinexact =>
    rw [hsigned negative hwhole]
    exact .inl (number?_decimal negative hwhole hfraction hexponent hinexact hrest)

theorem Body.textBody_eq {us : List Nat} (h : Body cs us rest) : textBody cs = some (us, rest) := by
  induction h with
  | closed => rw [textBody]
  | plain hvisible hquote hescape _ ih =>
    rw [textBody]
    · simp [ih, Nat.not_lt.2 hvisible]
    all_goals simp [hquote, hescape]
  | @escaped c u cs rest us hu _ ih =>
    have hc : c ≠ 'u' := by
      rintro rfl
      cases hu
    rw [textBody]
    · simp [hu, ih]
    · simp [hc]
  | numbered hu _ ih =>
    rw [textBody]
    simp [hu, ih]

theorem Body.text?_eq {us : List Nat} (h : Body cs us rest) :
    text? cs = .ok (textOfUnits us, rest) := by
  rw [text?, h.textBody_eq]
  rfl

theorem Body.length_lt {us : List Nat} (h : Body cs us rest) : rest.length < cs.length := by
  induction h with
  | closed => exact Nat.lt_succ_self _
  | plain _ _ _ _ ih | escaped _ _ ih | numbered _ _ ih =>
    simp only [List.length_cons]
    omega

theorem Numeric.head {v : Value} (h : Numeric limited cs v) :
    ∃ c cs', cs = c :: cs' ∧ isSpace c = false ∧ c ≠ ']' ∧ c ≠ '\x7d' := by
  have hsigned (negative : Bool) {whole : List Char} (hwhole : Whole whole) (behind : List Char) :
      ∃ c cs', signed negative (whole ++ behind) = c :: cs'
        ∧ isSpace c = false ∧ c ≠ ']' ∧ c ≠ '\x7d' := by
    obtain ⟨d, ds, rfl⟩ := List.exists_cons_of_ne_nil hwhole.ne_nil
    have hd := hwhole.digits d List.mem_cons_self
    cases negative with
    | true => exact ⟨'-', _, rfl, by decide⟩
    | false =>
      have hspace : isSpace d = false := by
        rw [← Bool.not_eq_true]
        simp only [isSpace, Bool.or_eq_true, decide_eq_true_eq]
        rintro (((rfl | rfl) | rfl) | rfl) <;> exact absurd hd (by decide)
      exact ⟨d, _, rfl, hspace, ne_of_isDigit hd (by decide), ne_of_isDigit hd (by decide)⟩
  cases h with
  | integer negative hwhole =>
    have hhead := hsigned negative hwhole []
    rwa [List.append_nil] at hhead
  | decimal negative hwhole => exact hsigned negative hwhole _

/-- A value, an item or a field begins with a character of its own. -/
theorem Reads.head {p : Part} (h : Reads limited depth cs p rest k) :
    ∃ c cs', cs = c :: cs' ∧ isSpace c = false ∧ c ≠ ']' ∧ c ≠ '\x7d' := by
  induction h with
  | null | yes | no | undefined | text | emptyList | list | emptyRecord | record | lastField
  | field =>
    exact ⟨_, _, rfl, by decide⟩
  | infinite negative => cases negative <;> exact ⟨_, _, rfl, by decide⟩
  | number hnumeric =>
    obtain ⟨c, cs', rfl, hc⟩ := hnumeric.head
    exact ⟨c, _, rfl, hc⟩
  | lastItem _ _ ih => exact ih
  | item _ _ _ _ ih => exact ih

theorem Reads.length_lt {p : Part} (h : Reads limited depth cs p rest k) :
    rest.length < cs.length := by
  induction h with
  | null | yes | no | undefined =>
    simp only [List.length_cons]
    omega
  | infinite negative =>
    cases negative <;> simp [signed] <;> omega
  | number hnumeric =>
    obtain ⟨c, cs', rfl, -⟩ := hnumeric.head
    simp only [List.cons_append, List.length_cons, List.length_append]
    omega
  | text hbody =>
    have := hbody.length_lt
    simp only [List.length_cons]
    omega
  | emptyList _ hend | emptyRecord _ hend =>
    have := hend.length_le
    simp only [List.length_cons] at this ⊢
    omega
  | list _ hspaces _ ih | record _ hspaces _ ih =>
    have := hspaces.length_le
    simp only [List.length_cons]
    omega
  | lastItem _ hend ih =>
    have := hend.length_le
    simp only [List.length_cons] at this
    omega
  | item _ hcomma hspaces _ ih ih' =>
    have := hcomma.length_le
    have := hspaces.length_le
    simp only [List.length_cons] at *
    omega
  | lastField hname hcolon hspaces _ hend ih =>
    have := hname.length_lt
    have := hcolon.length_le
    have := hspaces.length_le
    have := hend.length_le
    simp only [List.length_cons] at *
    omega
  | field hname hcolon hspaces _ hcomma hspaces' _ ih ih' =>
    have := hname.length_lt
    have := hcolon.length_le
    have := hspaces.length_le
    have := hcomma.length_le
    have := hspaces'.length_le
    simp only [List.length_cons] at *
    omega

/-- What the reader makes of a part, with enough fuel for the characters of it. -/
def Part.IsRead (limited : Bool) (depth : Nat) (cs rest : List Char) : Part → Prop
  | .value v => Follows rest → ∀ fuel, cs.length ≤ rest.length + (fuel + 1) →
      Meets limited (value? depth (fuel + 1) cs) (v, rest)
  | .items vs => ∀ fuel, cs.length ≤ rest.length + (fuel + 1) →
      Meets limited (items? depth (fuel + 1) cs) (vs, rest)
  | .fields known all => ∀ fuel, cs.length ≤ rest.length + (fuel + 1) →
      Meets limited (fields? depth (fuel + 1) known cs) (all, rest)

/-- What stands between brackets is read one level deeper, unless that is too deep. -/
theorem Meets.nested {β : Type} {x : Except Fault β} {a : β}
    (hdepth : limited = true → depth < deepest) (hx : Meets limited x a) :
    Meets limited (if deepest ≤ depth then .error .deepNesting else x) a := by
  split
  · rename_i hdeep
    cases limited with
    | true => exact absurd (hdepth rfl) (by omega)
    | false => exact .inr ⟨rfl, .inr rfl⟩
  · exact hx

/-- A field is its name, its colon and its value, and is the last one or has others behind it. -/
theorem Meets.field {cs₁ cs₂ rest : List Char} {us : List Nat} (hname : Body cs us cs₁)
    (hcolon : Spaces cs₁ (':' :: cs₂)) {fuel : Nat} {known : List (String × Value)} {v : Value}
    (hvalue : Meets limited (value? depth fuel (skipSpaces cs₂)) (v, rest))
    {b : List (String × Value) × List Char}
    (hend : (∃ behind, skipSpaces rest = '\x7d' :: behind
        ∧ b = (setField known (textOfUnits us) v, behind))
      ∨ ∃ behind, skipSpaces rest = ',' :: behind
        ∧ Meets limited
          (fields? depth fuel (setField known (textOfUnits us) v) (skipSpaces behind)) b) :
    Meets limited (fields? depth (fuel + 1) known ('"' :: cs)) b := by
  have hspaces := hcolon.skipSpaces_eq (by decide)
  rw [fields?, hname.text?_eq]
  refine (Meets.ok limited _).bind ?_
  dsimp only
  rw [hspaces]
  refine hvalue.bind ?_
  dsimp only
  rcases hend with ⟨behind, hlast, rfl⟩ | ⟨behind, hcomma, hmore⟩
  · rw [hlast]
    exact .inl rfl
  · rw [hcomma]
    exact hmore

/-- The reader follows the grammar. -/
theorem Reads.isRead {p : Part} (h : Reads limited depth cs p rest k) :
    p.IsRead limited depth cs rest := by
  -- every call of the reader passes a character at least, so the fuel lasts
  induction h with
  | null | yes | no | undefined =>
    intro _ fuel _
    rw [value?_eq_atom? (by decide)]
    exact .inl rfl
  | infinite negative =>
    intro _ fuel _
    cases negative with
    | true =>
      show Meets limited (value? _ _ ('-' :: _)) _
      rw [value?_eq_atom? (by decide)]
      exact .inl rfl
    | false =>
      show Meets limited (value? _ _ ('I' :: _)) _
      rw [value?_eq_atom? (by decide)]
      exact .inl rfl
  | number hnumeric => exact fun hfollows fuel _ => hnumeric.meets hfollows _ fuel
  | text hbody =>
    intro _ fuel _
    rw [value?, hbody.text?_eq]
    exact .inl rfl
  | emptyList hdepth hend | emptyRecord hdepth hend =>
    intro _ fuel _
    rw [value?, hend.skipSpaces_eq (by decide)]
    exact Meets.nested hdepth (.inl rfl)
  | @list depth k cs cs' rest vs hdepth hspaces h ih =>
    intro _ fuel hfuel
    have hlt := h.length_lt
    have hle := hspaces.length_le
    rw [List.length_cons] at hfuel
    obtain ⟨fuel, rfl⟩ : ∃ f, fuel = f + 1 := ⟨fuel - 1, by omega⟩
    have hitems := ih fuel (by omega)
    obtain ⟨c, cs', rfl, hc, hbracket, -⟩ := h.head
    rw [value?, hspaces.skipSpaces_eq hc]
    refine Meets.nested hdepth ?_
    split
    · rename_i heq
      exact absurd (List.cons.inj heq).1 hbracket
    · exact hitems.map _
  | @record depth k cs cs' rest fs hdepth hspaces h ih =>
    intro _ fuel hfuel
    have hlt := h.length_lt
    have hle := hspaces.length_le
    rw [List.length_cons] at hfuel
    obtain ⟨fuel, rfl⟩ : ∃ f, fuel = f + 1 := ⟨fuel - 1, by omega⟩
    have hfields := ih fuel (by omega)
    obtain ⟨c, cs', rfl, hc, -, hbrace⟩ := h.head
    rw [value?, hspaces.skipSpaces_eq hc]
    refine Meets.nested hdepth ?_
    split
    · rename_i heq
      exact absurd (List.cons.inj heq).1 hbrace
    · exact hfields.map _
  | lastItem h hend ih =>
    intro fuel hfuel
    have hlt := h.length_lt
    have hle := hend.length_le
    rw [List.length_cons] at hle
    obtain ⟨fuel, rfl⟩ : ∃ f, fuel = f + 1 := ⟨fuel - 1, by omega⟩
    have hvalue := ih (hend.follows (follows_cons (by decide))) fuel (by omega)
    rw [items?]
    refine hvalue.bind ?_
    dsimp only
    rw [hend.skipSpaces_eq (by decide)]
    exact .inl rfl
  | item h hcomma hspaces hrest ih ih' =>
    intro fuel hfuel
    have hlt := h.length_lt
    have hltRest := hrest.length_lt
    have hle := hcomma.length_le
    have hleRest := hspaces.length_le
    rw [List.length_cons] at hle
    obtain ⟨fuel, rfl⟩ : ∃ f, fuel = f + 1 := ⟨fuel - 1, by omega⟩
    have hvalue := ih (hcomma.follows (follows_cons (by decide))) fuel (by omega)
    have hitems := ih' fuel (by omega)
    obtain ⟨c, cs', rfl, hc, -⟩ := hrest.head
    rw [items?]
    refine hvalue.bind ?_
    dsimp only
    rw [hcomma.skipSpaces_eq (by decide)]
    show Meets limited (items? _ _ (skipSpaces _) >>= _) _
    rw [hspaces.skipSpaces_eq hc]
    exact hitems.bind (.inl rfl)
  | @lastField depth k cs cs₁ cs₂ cs₃ cs₄ rest us v known hname hcolon hspaces h hend ih =>
    intro fuel hfuel
    have hlt := h.length_lt
    have hltName := hname.length_lt
    have hleColon := hcolon.length_le
    have hle := hspaces.length_le
    have hleEnd := hend.length_le
    rw [List.length_cons] at hfuel hleColon hleEnd
    obtain ⟨fuel, rfl⟩ : ∃ f, fuel = f + 1 := ⟨fuel - 1, by omega⟩
    have hvalue := ih (hend.follows (follows_cons (by decide))) fuel (by omega)
    obtain ⟨c, cs', rfl, hc, -⟩ := h.head
    rw [← hspaces.skipSpaces_eq hc] at hvalue
    exact hvalue.field hname hcolon (.inl ⟨_, hend.skipSpaces_eq (by decide), rfl⟩)
  | @field depth k l cs cs₁ cs₂ cs₃ cs₄ cs₅ cs₆ rest us v known all hname hcolon hspaces h hcomma
      hspaces' hrest ih ih' =>
    intro fuel hfuel
    have hlt := h.length_lt
    have hltName := hname.length_lt
    have hltRest := hrest.length_lt
    have hleColon := hcolon.length_le
    have hle := hspaces.length_le
    have hleComma := hcomma.length_le
    have hleRest := hspaces'.length_le
    rw [List.length_cons] at hfuel hleColon hleComma
    obtain ⟨fuel, rfl⟩ : ∃ f, fuel = f + 1 := ⟨fuel - 1, by omega⟩
    have hvalue := ih (hcomma.follows (follows_cons (by decide))) fuel (by omega)
    have hfields := ih' fuel (by omega)
    obtain ⟨c, cs', rfl, hc, -⟩ := h.head
    obtain ⟨c', cs'', rfl, hc', -⟩ := hrest.head
    rw [← hspaces.skipSpaces_eq hc] at hvalue
    rw [← hspaces'.skipSpaces_eq hc'] at hfields
    exact hvalue.field hname hcolon (.inr ⟨_, hcomma.skipSpaces_eq (by decide), hfields⟩)

/-! ## Documents -/

/-- A document is read as what it denotes. -/
theorem Denotes.meets {s : String} {v : Value} (h : Denotes limited s.toList v k) :
    Meets limited (read s) v := by
  obtain ⟨start, rest, hstart, hvalue, hrest⟩ := h
  have hle := hstart.length_le
  have hfollows : Follows rest := hrest.follows nofun
  have hread := hvalue.isRead hfollows s.toList.length (by omega)
  obtain ⟨c, cs, rfl, hc, -⟩ := hvalue.head
  unfold read
  dsimp only
  rw [hstart.skipSpaces_eq hc]
  refine hread.bind ?_
  dsimp only
  rw [hrest.skipSpaces_eq_nil]
  exact .inl rfl

/-- A text that is read denotes nothing else. -/
theorem Denotes.eq_of_read {s : String} {v w : Value} (h : Denotes limited s.toList v k)
    (hread : read s = .ok w) : v = w := by
  rcases h.meets with heq | ⟨-, heq | heq⟩ <;> rw [hread] at heq <;> cases heq
  rfl

/-! ## The names of special numbers -/

/-- How many capital letters there are with which the name of a special number begins, outside
    texts. The flag tells whether one has been opened. -/
def capitals : Bool → List Char → Nat
  | _, [] => 0
  | true, '"' :: cs => capitals false cs
  | true, '\\' :: _ :: cs => capitals true cs
  | true, _ :: cs => capitals true cs
  | false, c :: cs =>
    if c = '"' then capitals true cs
    else (if c = 'N' ∨ c = 'I' then 1 else 0) + capitals false cs

theorem capitals_append : ∀ {cs : List Char}, (∀ c ∈ cs, c ∉ ['"', 'N', 'I']) →
    capitals false (cs ++ rest) = capitals false rest
  | [], _ => rfl
  | c :: cs, h => by
    have hc := h c List.mem_cons_self
    simp only [List.mem_cons, List.not_mem_nil, or_false, not_or] at hc
    obtain ⟨hquote, hN, hI⟩ := hc
    have hrest : capitals false (cs ++ rest) = capitals false rest :=
      capitals_append fun d hd => h d (List.mem_cons_of_mem _ hd)
    simp [capitals, hquote, hN, hI, hrest]

theorem capitals_cons (hc : c ∉ ['"', 'N', 'I']) : capitals false (c :: cs) = capitals false cs :=
  @capitals_append cs [c] (List.forall_mem_singleton.2 hc)

theorem Spaces.capitals_eq (h : Spaces cs rest) : capitals false cs = capitals false rest := by
  induction h with
  | done => rfl
  | space hspace _ ih =>
    rw [← ih]
    apply capitals_cons
    simp only [isSpace, Bool.or_eq_true, decide_eq_true_eq] at hspace
    rcases hspace with ((rfl | rfl) | rfl) | rfl <;> decide

theorem ne_of_hexDigit? {u : Nat} (h : hexDigit? c = some u) : c ≠ '"' ∧ c ≠ '\\' := by
  constructor <;> rintro rfl <;> cases h

theorem Body.capitals_eq {us : List Nat} (h : Body cs us rest) :
    capitals true cs = capitals false rest := by
  induction h with
  | closed => rfl
  | plain _ hquote hescape _ ih =>
    rw [← ih, capitals]
    · exact hquote
    · exact fun _ _ heq => absurd heq hescape
  | escaped _ _ ih => rw [← ih, capitals]
  | @numbered a b c d u cs rest us hu _ ih =>
    -- none of the four digits closes the text
    have hdigits : ∀ e ∈ [a, b, c, d], ∃ u, hexDigit? e = some u := by
      unfold hexUnit? at hu
      simp only [Option.bind_eq_bind, Option.bind_eq_some_iff] at hu
      obtain ⟨ua, ha, ub, hb, uc, hc, ud, hd, -⟩ := hu
      simp [ha, hb, hc, hd]
    have hskip (e : Char) (he : e ∈ [a, b, c, d]) (cs : List Char) :
        capitals true (e :: cs) = capitals true cs := by
      obtain ⟨u, hu⟩ := hdigits e he
      obtain ⟨hquote, hescape⟩ := ne_of_hexDigit? hu
      rw [capitals]
      · exact hquote
      · exact fun _ _ heq => absurd heq hescape
    rw [← ih, capitals, hskip a (by simp), hskip b (by simp), hskip c (by simp), hskip d (by simp)]

/-- A number has digits, signs, a point and a letter. -/
theorem Numeric.mem {v : Value} (h : Numeric limited cs v) :
    ∀ c ∈ cs, c.isDigit = true ∨ c ∈ ['.', 'e', 'E', '+', '-'] := by
  have hsigned {negative : Bool} {body : List Char}
      (hbody : ∀ c ∈ body, c.isDigit = true ∨ c ∈ ['.', 'e', 'E', '+', '-']) :
      ∀ c ∈ signed negative body, c.isDigit = true ∨ c ∈ ['.', 'e', 'E', '+', '-'] := by
    cases negative with
    | true => exact List.forall_mem_cons.2 ⟨.inr (by decide), hbody⟩
    | false => exact hbody
  cases h with
  | integer negative hwhole => exact hsigned fun c hc => .inl (hwhole.digits c hc)
  | decimal negative hwhole hfraction hexponent =>
    refine hsigned fun c hc => ?_
    simp only [List.mem_append] at hc
    rcases hc with hc | hc | hc
    · exact .inl (hwhole.digits c hc)
    · cases hfraction with
      | absent => cases hc
      | present hdigits =>
        rcases List.mem_cons.1 hc with rfl | hc
        · exact .inr (by decide)
        · exact .inl (hdigits c hc)
    · cases hexponent with
      | absent => cases hc
      | present hletter hsign hdigits =>
        rw [List.mem_cons, List.mem_append] at hc
        rcases hc with rfl | hc | hc
        · rcases hletter with rfl | rfl <;> exact .inr (by decide)
        · rcases hsign with rfl | rfl | rfl
          · cases hc
          all_goals
            rw [List.mem_singleton.1 hc]
            exact .inr (by decide)
        · exact .inl (hdigits c hc)

theorem Numeric.capitals_eq {v : Value} (h : Numeric limited cs v) :
    capitals false (cs ++ rest) = capitals false rest := by
  refine capitals_append fun c hc => ?_
  rcases h.mem c hc with hdigit | hmark
  · have hothers : ∀ d ∈ ['"', 'N', 'I'], d.isDigit = false := by simp
    exact fun hmem => ne_of_isDigit hdigit (hothers c hmem) rfl
  · have hmarks : ∀ d ∈ ['.', 'e', 'E', '+', '-'], d ∉ ['"', 'N', 'I'] := by simp
    exact hmarks c hmark

/-- The name of a field and its colon are passed over. -/
theorem capitals_field {cs₁ cs₂ cs₃ : List Char} {us : List Nat} (hname : Body cs us cs₁)
    (hcolon : Spaces cs₁ (':' :: cs₂)) (hspaces : Spaces cs₂ cs₃) :
    capitals false ('"' :: cs) = capitals false cs₃ := by
  show capitals true cs = _
  rw [hname.capitals_eq, hcolon.capitals_eq, capitals_cons (by decide), hspaces.capitals_eq]

/-- The names that a derivation uses show in the text: without any there is no capital letter, and
    each of them has one at least. -/
theorem Reads.capitals_eq {p : Part} (h : Reads limited depth cs p rest k) :
    capitals false rest + k ≤ capitals false cs ∧
      (k = 0 → capitals false cs = capitals false rest) := by
  have hsame {cs rest : List Char} (heq : capitals false cs = capitals false rest) :
      capitals false rest + 0 ≤ capitals false cs ∧
        (0 = 0 → capitals false cs = capitals false rest) := ⟨heq.ge, fun _ => heq⟩
  induction h with
  | null | yes | no => exact hsame (by simp [capitals])
  -- only these two names count; the second letter of one of them is capital, too
  | undefined =>
    refine ⟨?_, nofun⟩
    simp [capitals]
    omega
  | infinite negative =>
    refine ⟨?_, nofun⟩
    cases negative <;> simp [capitals, signed, Nat.add_comm]
  | number hnumeric => exact hsame hnumeric.capitals_eq
  | text hbody => exact hsame hbody.capitals_eq
  | emptyList _ hend | emptyRecord _ hend =>
    rw [capitals_cons (by decide), hend.capitals_eq, capitals_cons (by decide)]
    exact hsame rfl
  | list _ hspaces _ ih | record _ hspaces _ ih =>
    rwa [capitals_cons (by decide), hspaces.capitals_eq]
  | lastItem _ hend ih =>
    rwa [hend.capitals_eq, capitals_cons (by decide)] at ih
  | item _ hcomma hspaces _ ih ih' =>
    rw [hcomma.capitals_eq, capitals_cons (by decide), hspaces.capitals_eq] at ih
    omega
  | lastField hname hcolon hspaces _ hend ih =>
    rwa [hend.capitals_eq, capitals_cons (by decide), ← capitals_field hname hcolon hspaces] at ih
  | field hname hcolon hspaces _ hcomma hspaces' _ ih ih' =>
    rw [hcomma.capitals_eq, capitals_cons (by decide), hspaces'.capitals_eq,
      ← capitals_field hname hcolon hspaces] at ih
    omega

/-- A text has a standard derivation only if no derivation of it uses the name of a special
    number. -/
theorem Denotes.standard {v w : Value} (h : Denotes limited cs v k) {limited' : Bool}
    (hstandard : Denotes limited' cs w 0) : k = 0 := by
  obtain ⟨start, rest, hstart, hvalue, hrest⟩ := h
  obtain ⟨start', rest', hstart', hvalue', hrest'⟩ := hstandard
  -- the standard derivation leaves no capital letter that the other one could have used
  have hle := hvalue.capitals_eq.1
  have heq := hvalue'.capitals_eq.2 rfl
  rw [← hstart.capitals_eq, hrest.capitals_eq] at hle
  rw [← hstart'.capitals_eq, hrest'.capitals_eq] at heq
  omega

end ClusterRounds.Json
