/-
  ClusterRounds.Proofs.Generating

  The failures of generating points that are not reported under a name. Of a request that
  comes to no points it is never reported, and of the output it is not reported that it
  holds a character that no path can hold.
-/

import ClusterRounds.Proofs.Drawing
import ClusterRounds.Proofs.Numerals
import ClusterRounds.Proofs.Planning
import ClusterRounds.Proofs.Reporting

namespace ClusterRounds

open Files

/-! ## Characters of paths -/

namespace Files.Path

/-- No path can hold the character. -/
def Bars (c : Char) : Prop :=
  c = '\x00' ∨ ∃ u, Text.unpaired? c = some u ∧ (u < 0xDC80 ∨ 0xDCFF < u)

/-- The path has the character in its root or in one of its parts. -/
def Holds (p : Path) (c : Char) : Prop :=
  c ∈ p.root.toList ∨ ∃ part ∈ p.parts, c ∈ part.toList

variable {p : Path} {c : Char} {fault : FileFault}

theorem not_bars_of_ascii (hc : c.toNat < 128) (hnull : c ≠ '\x00') : ¬ Bars c := by
  rintro (h | ⟨u, hu, -⟩)
  · exact hnull h
  · rw [Text.unpaired?_of_ascii hc] at hu
    cases hu

theorem exists_bars {s : String} (h : faultOf? s = some fault) (hfault : fault.isOfFiles = false) :
    ∃ c ∈ s.toList, Bars c := by
  unfold faultOf? at h
  split at h
  · rename_i hnull
    exact ⟨'\x00', List.elem_iff.1 hnull, .inl rfl⟩
  · split at h
    · rename_i hhalf
      obtain ⟨c, hc, hany⟩ := List.any_eq_true.1 hhalf
      obtain ⟨u, hu, hout⟩ := (Option.any_eq_true ..).1 hany
      refine ⟨c, hc, .inr ⟨u, hu, ?_⟩⟩
      rwa [Bool.or_eq_true, decide_eq_true_eq, decide_eq_true_eq] at hout
    · split at h
      · cases h
        cases hfault
      · cases h

theorem mem_text (h : c ∈ p.text.toList) : c = '.' ∨ c = '/' ∨ p.Holds c := by
  unfold text at h
  dsimp only at h
  split at h
  · exact .inl (List.mem_singleton.1 h)
  · rw [String.toList_append, List.mem_append] at h
    rcases h with h | h
    · exact .inr (.inr (.inl h))
    · rcases Text.mem_intercalate h with h | h
      · exact .inr (.inl (List.mem_singleton.1 h))
      · exact .inr (.inr (.inr h))

theorem Holds.of_parent (h : p.parent.Holds c) : p.Holds c :=
  h.imp_right fun ⟨part, hpart, hc⟩ => ⟨part, List.dropLast_subset _ hpart, hc⟩

theorem Holds.of_extend {ending : String} (h : (p.extend ending).Holds c) :
    p.Holds c ∨ c ∈ ending.toList := by
  rcases h with h | ⟨part, hpart, hc⟩
  · exact .inl (.inl h)
  · rcases List.mem_append.1 hpart with hpart | hpart
    · exact .inl (.inr ⟨part, List.dropLast_subset _ hpart, hc⟩)
    · rw [List.mem_singleton.1 hpart, String.toList_append, List.mem_append] at hc
      refine hc.imp_left fun hc => .inr ?_
      unfold name at hc
      rw [List.getLastD_eq_getLast?] at hc
      cases hlast : p.parts.getLast? with
      | none =>
        rw [hlast] at hc
        exact nomatch hc
      | some last =>
        rw [hlast] at hc
        exact ⟨last, List.mem_of_getLast? hlast, hc⟩

theorem mem_of_mem_cutAtSlashes {cs piece : List Char} (h : piece ∈ cutAtSlashes cs) (hc : c ∈ piece) :
    c ∈ cs := by
  fun_induction cutAtSlashes cs generalizing piece with
  | case1 =>
    rw [List.mem_singleton.1 h] at hc
    exact nomatch hc
  | case2 rest ih =>
    rcases List.mem_cons.1 h with rfl | h
    · exact nomatch hc
    · exact List.mem_cons_of_mem _ (ih h hc)
  | case3 d rest _ hnil ih =>
    rw [List.mem_singleton.1 h, List.mem_singleton] at hc
    exact hc ▸ List.mem_cons_self
  | case4 d rest _ part parts hcut ih =>
    rw [hcut] at ih
    rcases List.mem_cons.1 h with rfl | h
    · rcases List.mem_cons.1 hc with rfl | hc
      · exact List.mem_cons_self
      · exact List.mem_cons_of_mem _ (ih List.mem_cons_self hc)
    · exact List.mem_cons_of_mem _ (ih (List.mem_cons_of_mem _ h) hc)

theorem mem_of_holds_ofText {s : String} (h : (ofText s).Holds c) : c = '/' ∨ c ∈ s.toList := by
  rcases h with h | ⟨part, hpart, hc⟩
  · refine .inl ?_
    unfold ofText rootOf at h
    dsimp only at h
    split at h <;> simp at h <;> exact h
  · refine .inr ?_
    obtain ⟨hpart, -⟩ := List.mem_filter.1 hpart
    obtain ⟨piece, hpiece, rfl⟩ := List.mem_map.1 hpart
    rw [String.toList_ofList] at hc
    exact mem_of_mem_cutAtSlashes hpiece hc

end Files.Path

/-! ## Saving -/

namespace Files.Tree

variable {t : Tree} {p : Path} {fault : FileFault}

/-- The failure is one of the files, or comes from a character of the path. -/
def FailsAt (p : Path) (fault : FileFault) : Prop :=
  fault.isOfFiles = true ∨ ∃ c, Path.Bars c ∧ p.Holds c

theorem FailsAt.of_text (h : fault.isOfFiles = true ∨ Path.faultOf? p.text = some fault) :
    FailsAt p fault := by
  rcases h with h | h
  · exact .inl h
  · by_cases hfiles : fault.isOfFiles = true
    · exact .inl hfiles
    · obtain ⟨c, hc, hbars⟩ := Path.exists_bars h (Bool.eq_false_iff.2 hfiles)
      refine .inr ⟨c, hbars, ?_⟩
      rcases Path.mem_text hc with rfl | rfl | hc
      · exact absurd hbars (Path.not_bars_of_ascii (by decide) (by decide))
      · exact absurd hbars (Path.not_bars_of_ascii (by decide) (by decide))
      · exact hc

theorem FailsAt.of_parent (h : FailsAt p.parent fault) : FailsAt p fault :=
  h.imp_right fun ⟨c, hbars, hc⟩ => ⟨c, hbars, hc.of_parent⟩

theorem fault_of_makeDirectory {location : String} (h : t.makeDirectory location = .error fault) :
    fault.isOfFiles = true ∨ Path.faultOf? location = some fault := by
  unfold makeDirectory at h
  split at h
  · cases h
    exact .inr ‹_›
  · refine .inl ?_
    rcases bind_eq_error.1 h with h | ⟨here, -, h⟩
    · exact fault_of_directoryOf h
    · split at h
      case h_5 =>
        dsimp only at h
        split at h
        · cases h
          rfl
        · split at h <;> cases h
          rfl
      all_goals
        cases h
        rfl

theorem fault_of_orStanding {location : String} {made : Except FileFault Tree}
    (h : t.orStanding location made = .error fault) : made = .error fault := by
  unfold orStanding at h
  split at h
  · cases h
  · split at h
    · cases h
    · exact h

theorem failsAt_of_makeUpTo {t : Tree} : ∀ {levels : Nat} {p : Path},
    t.makeUpTo levels p = .error fault → FailsAt p fault
  | 0, p, h => .of_text (fault_of_makeDirectory (fault_of_orStanding h))
  | levels + 1, p, h => by
    unfold makeUpTo at h
    split at h
    · rcases bind_eq_error.1 h with h | ⟨made, -, h⟩
      · exact (failsAt_of_makeUpTo h).of_parent
      · exact .of_text (fault_of_makeDirectory (fault_of_orStanding h))
    · exact .of_text (fault_of_makeDirectory (fault_of_orStanding h))

end Files.Tree

namespace Save

theorem not_bars_suffix : ∀ c ∈ arraySuffix.toList, ¬ Path.Bars c := by
  have hplain : arraySuffix.toList.all (fun c => c.toNat < 128 && c != '\x00') = true := by decide
  intro c hc
  have h := List.all_eq_true.1 hplain c hc
  rw [Bool.and_eq_true, decide_eq_true_eq, bne_iff_ne] at h
  exact Path.not_bars_of_ascii h.1 h.2

/-- Points with plain metadata are saved, or the files or the path are at fault. -/
theorem points_ends (tree : Tree) (p : Path) {data : Tensor Float} {metadata : List (String × Value)}
    (hplain : ∀ m ∈ metadata, Text.IsAscii m.1 ∧ m.2.IsNumber) {n width : Nat}
    (hshape : data.shape = [n, width]) :
    Outcome.Ends (points tree p data metadata).1 (fun _ => True)
      (fun f => ∃ fault, f = .file fault ∧ Tree.FailsAt p fault) := by
  unfold points
  split
  · rename_i fault hmade
    exact ⟨fault, rfl, (Tree.failsAt_of_makeUpTo hmade).of_parent⟩
  · dsimp only
    split
    · split
      · rename_i fault hwritten
        refine ⟨fault, rfl, ?_⟩
        have hfails := Tree.FailsAt.of_text (Tree.fault_of_write hwritten)
        unfold arrayPath at hfails
        split at hfails
        · exact hfails
        · refine hfails.imp_right fun ⟨c, hbars, hc⟩ => ⟨c, hbars, ?_⟩
          exact hc.of_extend.resolve_right fun hsuffix => not_bars_suffix c hsuffix hbars
      · exact True.intro
    · split
      · rename_i fault hwritten
        exact ⟨fault, rfl, .of_text (Tree.fault_of_write hwritten)⟩
      · rw [tableText_eq_ok hplain hshape]
        exact True.intro

end Save

namespace CommandLine

/-! ## The request -/

variable {options : Arguments} {w : World} {f : Failure}

/-- The arguments that the options of generating points stand for. -/
def argumentsOf (options : Arguments) : Arguments :=
  [("N", options.get "--N" (.int 10000)), ("D", options.get "--D" (.int 2)),
    ("K", options.get "--K" (.int 4)), ("cluster_std", options.get "--cluster-std" (.float 1)),
    ("seed", options.get "--seed" (.int 42))]

/-- Options that have been read stand for a request. -/
theorem exists_request (h : Typed generateOptions options) :
    ∃ r : Blobs.Request, argumentsOf options = r.arguments := by
  obtain ⟨points, hpoints⟩ := h.exists_int "--N" (by simp [generateOptions]) 10000
  obtain ⟨width, hwidth⟩ := h.exists_int "--D" (by simp [generateOptions]) 2
  obtain ⟨centres, hcentres⟩ := h.exists_int "--K" (by simp [generateOptions]) 4
  obtain ⟨spread, hspread⟩ := h.exists_float "--cluster-std" (by simp [generateOptions]) 1
  obtain ⟨seed, hseed⟩ := h.exists_int "--seed" (by simp [generateOptions]) 42
  refine ⟨⟨points, width, centres, spread, seed⟩, ?_⟩
  rw [argumentsOf, hpoints, hwidth, hcentres, hspread, hseed]
  rfl

theorem isNumber_metadata (r : Blobs.Request) :
    ∀ m ∈ Blobs.metadata r.arguments, Text.IsAscii m.1 ∧ m.2.IsNumber := by
  intro m hm
  simp only [Blobs.metadata, List.mem_cons, List.not_mem_nil, or_false] at hm
  rcases hm with rfl | rfl | rfl | rfl | rfl
  · exact ⟨(by decide : Text.IsAscii "N"), .inl ⟨r.points, rfl⟩⟩
  · exact ⟨(by decide : Text.IsAscii "D"), .inl ⟨r.width, rfl⟩⟩
  · exact ⟨(by decide : Text.IsAscii "K"), .inl ⟨r.centres, rfl⟩⟩
  · exact ⟨(by decide : Text.IsAscii "cluster_std"), .inr ⟨r.spread, rfl⟩⟩
  · exact ⟨(by decide : Text.IsAscii "seed"), .inl ⟨r.seed, rfl⟩⟩

/-- How generating points ends, with the arguments that it is asked with. -/
theorem generate_eq [Machine] : (generate options w).1 =
    match Blobs.ofArguments (argumentsOf options) >>= Blobs.generate with
    | .error f => .error f
    | .ok made => (Save.points w.tree (.ofText (textOption options "--output")) made.points
        (Blobs.metadata (argumentsOf options))).1 := by
  unfold generate
  change (match Blobs.ofArguments (argumentsOf options) >>= Blobs.generate with
    | .error f => _ | .ok made => _ : Outcome Unit × World).1 = _
  split <;> rfl

/-! ## The failures of generating points -/

/-- How generating points fails without being reported. -/
inductive GenerateEscapes [Machine] (options : Arguments) : Failure → Prop
  /-- What is asked for comes to no points. -/
  | request {r : Blobs.Request} {f : Failure} (asked : argumentsOf options = r.arguments)
      (fails : r.Fails f) : GenerateEscapes options f
  /-- The output holds a character that no path can hold. -/
  | output {c : Char} {fault : FileFault} (held : c ∈ (textOption options "--output").toList)
      (bars : Path.Bars c) : GenerateEscapes options (.file fault)

/-- Generating points with options that have been read escapes in one of the two ways. -/
theorem GenerateEscapes.of_untitled [Machine] (htyped : Typed generateOptions options)
    (hfails : (generate options w).1 = .error f) (huntitled : title? f = none) :
    GenerateEscapes options f := by
  obtain ⟨r, hr⟩ := exists_request htyped
  rw [generate_eq, hr] at hfails
  split at hfails
  · rename_i f' hf
    cases hfails
    exact .request hr (Blobs.made_eq_error.1 hf)
  · rename_i made hok
    obtain ⟨-, n, hshape⟩ := (Blobs.made_ends r).of_ok hok
    obtain ⟨fault, rfl, hfault⟩ :=
      (Save.points_ends w.tree _ (isNumber_metadata r) hshape).of_error hfails
    rcases hfault with hfiles | ⟨c, hbars, hc⟩
    · rw [isOfFiles_of_untitled huntitled] at hfiles
      cases hfiles
    · rcases Path.mem_of_holds_ofText hc with rfl | hc
      · exact absurd hbars (Path.not_bars_of_ascii (by decide) (by decide))
      · exact .output hc hbars

/-- Surely it does if the request fails. -/
theorem generate_of_fails [Machine] {r : Blobs.Request} (hr : argumentsOf options = r.arguments)
    (hfails : r.Fails f) : (generate options w).1 = .error f := by
  rw [generate_eq, hr, Blobs.made_eq_error.2 hfails]

theorem untitled_of_fails [Machine] {r : Blobs.Request} (h : r.Fails f) : title? f = none := by
  cases h <;> rfl

end CommandLine

end ClusterRounds
