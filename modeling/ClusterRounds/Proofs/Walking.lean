/-
  ClusterRounds.Proofs.Walking

  Paths as they are walked. Parts between slashes are cut apart again (`cutAtSlashes_join`), so
  the steps of a path's text are its root and its parts. Paths that differ in their names alone
  start from the same directory.
-/

import ClusterRounds.Files.Path
import Mathlib.Data.List.Infix

namespace ClusterRounds

theorem Text.endsWith_iff {s ending : String} :
    s.endsWith ending = true ↔ ending.toList <:+ s.toList := by
  rw [← String.endsWith_toSlice, String.Slice.endsWith_string_iff, String.copy_toSlice]

namespace Files.Path

/-! ## Cutting -/

theorem cutAtSlashes_cons {c : Char} (h : c ≠ '/') (cs : List Char) :
    ∃ part parts, cutAtSlashes cs = part :: parts ∧ cutAtSlashes (c :: cs) = (c :: part) :: parts := by
  induction cs generalizing c with
  | nil => exact ⟨[], [], rfl, by rw [cutAtSlashes]; exacts [rfl, fun heq => h heq]⟩
  | cons d cs ih =>
    by_cases hd : d = '/'
    · rw [hd]
      refine ⟨[], cutAtSlashes cs, rfl, ?_⟩
      rw [cutAtSlashes]
      exacts [rfl, fun heq => h heq]
    · obtain ⟨part, parts, -, hcut⟩ := ih hd
      refine ⟨d :: part, parts, hcut, ?_⟩
      rw [cutAtSlashes, hcut]
      exact fun heq => h heq

theorem cutAtSlashes_append (cs rest : List Char) :
    cutAtSlashes (cs ++ '/' :: rest) = cutAtSlashes cs ++ cutAtSlashes rest := by
  induction cs with
  | nil => rfl
  | cons c cs ih =>
    by_cases hc : c = '/'
    · rw [hc, List.cons_append, cutAtSlashes, ih, cutAtSlashes]
      rfl
    · obtain ⟨part, parts, hcut, hcons⟩ := cutAtSlashes_cons hc cs
      obtain ⟨part', parts', hcut', hcons'⟩ := cutAtSlashes_cons hc (cs ++ '/' :: rest)
      rw [ih, hcut, List.cons_append] at hcut'
      obtain ⟨rfl, rfl⟩ := List.cons.inj hcut'
      rw [List.cons_append, hcons', hcons, List.cons_append]

theorem cutAtSlashes_part {part : List Char} (h : '/' ∉ part) : cutAtSlashes part = [part] := by
  induction part with
  | nil => rfl
  | cons c part ih =>
    rw [List.mem_cons, not_or] at h
    obtain ⟨first, parts, hcut, hcons⟩ := cutAtSlashes_cons (Ne.symm h.1) part
    rw [ih h.2] at hcut
    obtain ⟨rfl, rfl⟩ := List.cons.inj hcut
    exact hcons

theorem cutAtSlashes_join : ∀ {parts : List (List Char)}, parts ≠ [] → (∀ part ∈ parts, '/' ∉ part) →
    cutAtSlashes (['/'].intercalate parts) = parts
  | [part], _, h => by
    rw [List.intercalate_singleton, cutAtSlashes_part (h part List.mem_cons_self)]
  | part :: next :: parts, _, h => by
    rw [List.intercalate_cons_cons, List.append_assoc, List.singleton_append,
      cutAtSlashes_append, cutAtSlashes_part (h part List.mem_cons_self),
      cutAtSlashes_join (List.cons_ne_nil _ _) fun p hp => h p (List.mem_cons_of_mem _ hp)]
    rfl

theorem not_mem_of_mem_cutAtSlashes : ∀ {cs part : List Char}, part ∈ cutAtSlashes cs → '/' ∉ part
  | [], part, h => by
    rw [List.mem_singleton.1 h]
    exact List.not_mem_nil
  | c :: cs, part, h => by
    by_cases hc : c = '/'
    · rw [hc] at h
      rcases List.mem_cons.1 h with rfl | h
      · exact List.not_mem_nil
      · exact not_mem_of_mem_cutAtSlashes h
    · obtain ⟨first, parts, hcut, hcons⟩ := cutAtSlashes_cons hc cs
      rw [hcons] at h
      rcases List.mem_cons.1 h with rfl | h
      · rw [List.mem_cons, not_or]
        exact ⟨Ne.symm hc, not_mem_of_mem_cutAtSlashes (hcut ▸ List.mem_cons_self)⟩
      · exact not_mem_of_mem_cutAtSlashes (hcut ▸ List.mem_cons_of_mem _ h)

/-! ## Steps -/

variable {p : Path}

/-- The path is one that a text can stand for. -/
structure WellFormed (p : Path) : Prop where
  root : p.root = "" ∨ p.root = "/" ∨ p.root = "//"
  parts : ∀ part ∈ p.parts, part ≠ "" ∧ '/' ∉ part.toList

theorem wellFormed_ofText (s : String) : (ofText s).WellFormed where
  root := by
    unfold ofText rootOf
    dsimp only
    split <;> simp
  parts := by
    intro part hpart
    obtain ⟨hcut, hkept⟩ := List.mem_filter.1 hpart
    obtain ⟨cs, hcs, rfl⟩ := List.mem_map.1 hcut
    rw [Bool.and_eq_true, decide_eq_true_eq] at hkept
    rw [String.toList_ofList]
    exact ⟨hkept.1, not_mem_of_mem_cutAtSlashes hcs⟩

namespace WellFormed

variable (h : p.WellFormed)

include h

theorem cutAtSlashes_parts (hne : p.parts ≠ []) :
    cutAtSlashes (['/'].intercalate (p.parts.map String.toList)) = p.parts.map String.toList := by
  refine cutAtSlashes_join (mt List.map_eq_nil_iff.1 hne) fun cs hcs => ?_
  obtain ⟨part, hpart, rfl⟩ := List.mem_map.1 hcs
  exact (h.parts part hpart).2

/-- No part is empty, so none begins and none ends between two slashes. -/
theorem nil_notMem_parts : [] ∉ p.parts.map String.toList := by
  intro hnil
  obtain ⟨part, hpart, heq⟩ := List.mem_map.1 hnil
  exact (h.parts part hpart).1 (String.toList_eq_nil_iff.1 heq)

theorem toList_text (hne : p.parts ≠ []) : p.text.toList
    = p.root.toList ++ ['/'].intercalate (p.parts.map String.toList) := by
  have htext : (p.root ++ "/".intercalate p.parts).toList
      = p.root.toList ++ ['/'].intercalate (p.parts.map String.toList) := by
    rw [String.toList_append, String.toList_intercalate]
    rfl
  have hempty : (p.root ++ "/".intercalate p.parts).isEmpty = false := by
    rw [Bool.eq_false_iff]
    intro hempty
    have hnil := cutAtSlashes_parts h hne
    rw [String.isEmpty_iff, ← String.toList_eq_nil_iff, htext, List.append_eq_nil_iff] at hempty
    rw [hempty.2] at hnil
    exact nil_notMem_parts h (hnil ▸ List.mem_singleton.2 rfl)
  unfold text
  dsimp only
  rw [hempty, if_neg Bool.false_ne_true, htext]

/-- No slash stands in front of the first part, and none behind the last one. -/
theorem not_slash_at_ends {L : List Char} (hcut : cutAtSlashes L = p.parts.map String.toList) :
    (∀ rest, L ≠ '/' :: rest) ∧ ∀ front, L ≠ front ++ ['/'] := by
  have hnil := nil_notMem_parts h
  constructor
  · rintro rest rfl
    exact hnil (hcut ▸ List.mem_cons_self)
  · rintro front rfl
    rw [cutAtSlashes_append] at hcut
    exact hnil (hcut ▸ List.mem_append_right _ List.mem_cons_self)

/-- The steps of a path's text are its root and its parts. -/
theorem stepsOf_text (hne : p.parts ≠ []) : stepsOf p.text = p.steps := by
  have hcut := cutAtSlashes_parts h hne
  have htext := toList_text h hne
  obtain ⟨hfirst, hlast⟩ := not_slash_at_ends h hcut
  generalize ['/'].intercalate (p.parts.map String.toList) = joined at hcut htext hfirst hlast
  have hjoined : joined ≠ [] := by
    rintro rfl
    exact nil_notMem_parts h (hcut ▸ List.mem_singleton.2 rfl)
  have hkept : ((p.parts.map String.toList).map String.ofList).filter (· ≠ "") = p.parts := by
    have hmap : (p.parts.map String.toList).map String.ofList = p.parts := by
      simp [Function.comp_def]
    rw [hmap, List.filter_eq_self]
    exact fun part hpart => decide_eq_true (h.parts part hpart).1
  have hparts : ((cutAtSlashes p.text.toList).map String.ofList).filter (· ≠ "") = p.parts := by
    -- in front of the root's slashes there is nothing
    obtain ⟨empty, hempty, hwhole⟩ : ∃ empty : List (List Char), (∀ cs ∈ empty, cs = []) ∧
        cutAtSlashes p.text.toList = empty ++ p.parts.map String.toList := by
      rw [htext]
      rcases h.root with hroot | hroot | hroot <;> rw [hroot]
      · exact ⟨[], by simp, hcut⟩
      · exact ⟨[[]], by simp, congrArg ([] :: ·) hcut⟩
      · exact ⟨[[], []], by simp, congrArg ([] :: [] :: ·) hcut⟩
    rw [hwhole, List.map_append, List.filter_append, hkept, List.append_left_eq_self,
      List.filter_eq_nil_iff]
    intro part hpart
    obtain ⟨cs, hcs, rfl⟩ := List.mem_map.1 hpart
    simp [hempty cs hcs]
  have hstart : p.text.startsWith "/" = !p.root.isEmpty := by
    rw [Bool.eq_iff_iff, String.startsWith_string_iff, htext]
    rcases h.root with hroot | hroot | hroot <;> rw [hroot]
    · refine iff_of_false ?_ (by decide)
      rintro ⟨rest, hrest⟩
      exact hfirst rest hrest.symm
    · exact iff_of_true ⟨_, rfl⟩ (by decide)
    · exact iff_of_true ⟨_, rfl⟩ (by decide)
  have hend : p.text.endsWith "/" = false := by
    rw [Bool.eq_false_iff, ne_eq, Text.endsWith_iff, htext]
    rintro ⟨front, hfront⟩
    obtain ⟨before, c, rfl⟩ := List.eq_nil_or_concat' joined |>.resolve_left hjoined
    rw [← List.append_assoc] at hfront
    obtain ⟨-, hc⟩ := List.append_inj' hfront rfl
    exact hlast before (by rw [← hc]; rfl)
  unfold stepsOf steps
  rw [hparts, hstart, hend]
  cases p.root.isEmpty <;> simp

/-- The text of a path ends in its name, in front of which there is nothing or a slash. -/
theorem exists_front (hne : p.parts ≠ []) : ∃ front, p.text.toList = front ++ p.name.toList ∧
    (front = [] ∨ ∃ others, front = others ++ ['/']) := by
  obtain ⟨parts, name, hparts⟩ := (List.eq_nil_or_concat' p.parts).resolve_left hne
  have hname : p.name = name := by simp [Path.name, hparts]
  have hjoin : ∀ parts : List (List Char), ∃ front,
      ['/'].intercalate (parts ++ [name.toList]) = front ++ name.toList ∧
        (front = [] ∨ ∃ others, front = others ++ ['/']) := by
    intro parts
    induction parts with
    | nil => exact ⟨[], by simp, .inl rfl⟩
    | cons part parts ih =>
      obtain ⟨front, hfront, hend⟩ := ih
      refine ⟨part ++ '/' :: front, ?_, .inr ?_⟩
      · rw [List.cons_append, List.intercalate_cons_of_ne_nil (by simp), hfront]
        simp
      · rcases hend with rfl | ⟨others, rfl⟩
        · exact ⟨part, rfl⟩
        · exact ⟨part ++ '/' :: others, by simp⟩
  obtain ⟨front, hfront, hend⟩ := hjoin (parts.map String.toList)
  refine ⟨p.root.toList ++ front, ?_, ?_⟩
  · rw [toList_text h hne, hparts, List.map_append, List.map_singleton, hfront, hname,
      List.append_assoc]
  · rcases hend with rfl | ⟨others, rfl⟩
    · rw [List.append_nil]
      rcases h.root with hroot | hroot | hroot <;> rw [hroot]
      · exact .inl rfl
      · exact .inr ⟨[], rfl⟩
      · exact .inr ⟨['/'], rfl⟩
    · exact .inr ⟨p.root.toList ++ others, by rw [List.append_assoc]⟩

/-- A path with some text behind its name is walked like the path itself but for the last step. -/
theorem stepsOf_extend (hne : p.parts ≠ []) {ending : String} (hending : '/' ∉ ending.toList) :
    ∃ front, stepsOf p.text = front ++ [p.name] ∧
      stepsOf (p.extend ending).text = front ++ [p.name ++ ending] := by
  obtain ⟨parts, name, hparts⟩ := (List.eq_nil_or_concat' p.parts).resolve_left hne
  have hname : p.name = name := by simp [Path.name, hparts]
  have hwell : (p.extend ending).WellFormed := by
    refine ⟨h.root, fun part hpart => ?_⟩
    simp only [extend, hname, hparts, List.dropLast_concat, List.mem_append, List.mem_singleton]
      at hpart
    rcases hpart with hpart | rfl
    · exact h.parts part (by rw [hparts]; exact List.mem_append_left _ hpart)
    · obtain ⟨hne, hslash⟩ := h.parts name (by rw [hparts]; simp)
      refine ⟨fun heq => hne (String.append_eq_empty_iff.1 heq).1, ?_⟩
      rw [String.toList_append, List.mem_append, not_or]
      exact ⟨hslash, hending⟩
  refine ⟨(if p.root.isEmpty then [] else ["/"]) ++ parts, ?_, ?_⟩
  · rw [stepsOf_text h hne, steps, hparts, hname]
    cases p.root.isEmpty <;> simp
  · rw [stepsOf_text hwell (by simp [extend]), steps]
    simp only [extend, hparts, hname, List.dropLast_concat]
    cases p.root.isEmpty <;> simp

end WellFormed

end Files.Path

end ClusterRounds
