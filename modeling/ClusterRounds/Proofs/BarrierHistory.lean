/-
  ClusterRounds.Proofs.BarrierHistory

  The barrier over any series of calls, by any number of callers. What is done under the
  lock at one time is one entry of the series: an opening, an arrival, the beginning of a
  wait, or a look of a wait that has begun. A wait is thus as long as its caller likes,
  and anything may come between its beginning and any of its looks; it is not even asked
  that a look has a beginning, so that nothing which can happen is left out.

  A log of calls and answers is cut by the rounds that were opened and the looks that
  handed out results, and the barrier is at each moment what the last cut says (`Tracks`):
  closed if every opening was followed by such a look, and otherwise open for the last
  round opened, holding exactly what has arrived since.

  A wait compares its round when it begins and never again. It gets the results of the
  opening it began under exactly if nobody else gets any while it waits, which is so
  whenever one waits at a time; two waits that overlap are not kept apart.
-/

import ClusterRounds.Proofs.History
import ClusterRounds.Proofs.Interleaving
import Mathlib.Data.List.Nodup
import Mathlib.Data.List.Perm.Subperm

namespace ClusterRounds
namespace Barrier

variable {β : Type}

/-! ## What a call can do -/

/-- Who waits, and for which round. -/
structure Wait where
  caller : Nat
  epoch : Option Int

inductive Call (β : Type) where
  | openFor (epoch : Option Int)
  | arrive (party : Int) (epoch : Option Int) (result : β)
  | enter (wait : Wait)
  | look (wait : Wait) (timeUp : Bool)

/-- The answer to a call, which only a look gives any results, and the barrier afterwards. -/
def call (b : Barrier β) : Call β → Outcome (Option (List β)) × Barrier β
  | .openFor epoch =>
    match b.openFor epoch with
    | .error e => (.error e, b)
    | .ok b => (.ok none, b)
  | .arrive party epoch result =>
    match b.arrive party epoch result with
    | .error e => (.error e, b)
    | .ok b => (.ok none, b)
  | .enter wait => ((b.enter wait.epoch).map fun _ => none, b)
  | .look wait timeUp =>
    match b.look wait.epoch timeUp with
    | .error e => (.error e, b)
    | .ok (results, b) => (.ok results, b)

variable {b b' : Barrier β} {epoch : Option Int} {party : Int} {result : β} {results : List β}
variable {wait : Wait} {timeUp : Bool}

theorem call_openFor_of_ok {answer : Option (List β)}
    (h : (b.call (.openFor epoch)).1 = .ok answer) :
    b.openFor epoch = .ok (b.call (.openFor epoch)).2 := by
  cases hok : b.openFor epoch with
  | error e => simp [call, hok] at h
  | ok b' => simp [call, hok]

theorem call_look_of_ok {answer : Option (List β)}
    (h : (b.call (.look wait timeUp)).1 = .ok answer) :
    b.look wait.epoch timeUp = .ok (answer, (b.call (.look wait timeUp)).2) := by
  cases hok : b.look wait.epoch timeUp with
  | error e => simp [call, hok] at h
  | ok out => simpa [call, hok, Prod.ext_iff] using h

theorem enter_eq_ok : b.enter epoch = .ok () ↔ epoch = b.epoch := by
  unfold enter
  split <;> simp_all

theorem call_enter_of_ok {answer : Option (List β)}
    (h : (b.call (.enter wait)).1 = .ok answer) : wait.epoch = b.epoch := by
  refine enter_eq_ok.1 ?_
  cases hok : b.enter wait.epoch with
  | error e => simp [call, hok, Except.map] at h
  | ok u => rfl

theorem handOut?_eq_some : b.handOut? = some (results, b') ↔
    b.arrived.length = b.parties ∧
      results = (List.range b.parties).filterMap (fun (p : Nat) => b.arrived.lookup (p : Int)) ∧
      b' = { b with epoch := none, arrived := [] } := by
  unfold handOut?
  by_cases hall : b.arrived.length = b.parties
  · simp [hall, eq_comm]
  · simp [hall]

theorem look_eq_results : b.look epoch timeUp = .ok (some results, b') ↔
    b.handOut? = some (results, b') := by
  unfold look
  cases b.handOut? with
  | none => cases timeUp <;> simp
  | some out => simp [Prod.ext_iff]

theorem eq_of_look_none (h : b.look epoch timeUp = .ok (none, b')) : b' = b := by
  unfold look at h
  cases hout : b.handOut? with
  | none => cases timeUp <;> simp_all
  | some out => simp [hout] at h

/-- Only an opening, an arrival and a look that gives results change the barrier; a call that fails
    leaves it as it was, and so do all steps of a wait but the one that ends it with success. -/
theorem call_of_unchanging {c : Call β} (h : (∃ e, (b.call c).1 = .error e) ∨
    ∃ wait, c = .enter wait ∨ ∃ timeUp, c = .look wait timeUp ∧ (b.call c).1 = .ok none) :
    (b.call c).2 = b := by
  cases c with
  | openFor epoch => cases hok : b.openFor epoch <;> simp [call, hok] at h ⊢
  | arrive party epoch result => cases hok : b.arrive party epoch result <;> simp [call, hok] at h ⊢
  | enter wait => rfl
  | look wait timeUp =>
    cases hok : b.look wait.epoch timeUp with
    | error e => simp [call, hok]
    | ok out =>
      obtain ⟨answer, b'⟩ := out
      simp only [call, hok] at h ⊢
      obtain ⟨e, h⟩ | ⟨_, h | ⟨_, -, h⟩⟩ := h
      · cases h
      · cases h
      · cases h
        exact eq_of_look_none hok

theorem openFor_eq_ok : b.openFor epoch = .ok b' ↔
    b.epoch = none ∧ b' = { b with epoch, arrived := [] } := by
  unfold openFor
  cases b.epoch <;> simp [eq_comm]

theorem arrive_eq_ok : b.arrive party epoch result = .ok b' ↔
    ∃ round, b.epoch = some round ∧ epoch = some round ∧ 0 ≤ party ∧ party < b.parties ∧
      party ∉ b.arrived.map (·.1) ∧ b' = { b with arrived := b.arrived ++ [(party, result)] } := by
  have hany : b.arrived.any (·.1 = party) = true ↔ party ∈ b.arrived.map (·.1) := by simp
  unfold arrive
  cases b.epoch with
  | none => simp
  | some round =>
    dsimp only
    split
    · rename_i hepoch
      constructor
      · intro h
        cases h
      · rintro ⟨r, hr, hasked, -⟩
        exact absurd (hasked.trans hr.symm) hepoch
    · rename_i hepoch
      split
      · rename_i hparty
        constructor
        · intro h
          cases h
        · rintro ⟨-, -, -, hlow, hhigh, -⟩
          simp only [Bool.or_eq_true, decide_eq_true_eq] at hparty
          omega
      · rename_i hparty
        split
        · rename_i hagain
          constructor
          · intro h
            cases h
          · rintro ⟨-, -, -, -, -, hnew, -⟩
            exact absurd (hany.1 hagain) hnew
        · rename_i hnew
          rw [hany] at hnew
          simp only [Bool.or_eq_true, decide_eq_true_eq, not_or, Int.not_lt, Int.not_le] at hparty
          rw [Except.ok.injEq]
          constructor
          · intro h
            exact ⟨round, rfl, Decidable.of_not_not hepoch, hparty.1, hparty.2, hnew, h.symm⟩
          · rintro ⟨-, -, -, -, -, -, h⟩
            exact h.symm

/-! ## What a log shows -/

/-- A call with its answer. -/
abbrev Entry (β : Type) := Call β × Outcome (Option (List β))

/-- The round that was opened. -/
def opening? : Entry β → Option Int
  | (.openFor epoch, .ok _) => epoch
  | _ => none

/-- The arrival that was accepted: whose it was, for which round, and what was brought. -/
def arrival? : Entry β → Option (Int × Option Int × β)
  | (.arrive party epoch result, .ok _) => some (party, epoch, result)
  | _ => none

/-- The results that were handed out. -/
def handedOut? : Entry β → Option (List β)
  | (.look _ _, .ok results) => results
  | _ => none

/-- All arrivals that were accepted, in their order. -/
def arrivals (entries : List (Entry β)) : List (Int × Option Int × β) :=
  entries.filterMap arrival?

/-- Everything that was handed out, one look after the other. -/
def handedOut (entries : List (Entry β)) : List β := (entries.filterMap handedOut?).flatten

/-- No round was opened and none was over. -/
def Quiet (entries : List (Entry β)) : Prop :=
  ∀ e ∈ entries, opening? e = none ∧ handedOut? e = none

/-- Every round that was opened is over. -/
def AllOver (entries : List (Entry β)) : Prop :=
  ∀ earlier a during, entries = earlier ++ a :: during → (opening? a).isSome →
    ∃ e ∈ during, (handedOut? e).isSome

section Logs

variable {past : List (Entry β)} {entry : Entry β}

theorem arrivals_concat : arrivals (past ++ [entry]) = arrivals past ++ (arrival? entry).toList := by
  unfold arrivals
  rw [List.filterMap_append]
  cases h : arrival? entry <;> simp [h]

theorem handedOut_concat :
    handedOut (past ++ [entry]) = handedOut past ++ (handedOut? entry).getD [] := by
  unfold handedOut
  rw [List.filterMap_append, List.flatten_append]
  cases h : handedOut? entry <;> simp [h]

/-- An entry of a log with one more entry is an old one, or the new one. -/
theorem concat_eq_append_cons {earlier during : List (Entry β)} {a : Entry β}
    (h : past ++ [entry] = earlier ++ a :: during) :
    (past = earlier ∧ entry = a ∧ during = []) ∨
      ∃ rest, past = earlier ++ a :: rest ∧ during = rest ++ [entry] := by
  rcases List.eq_nil_or_concat during with rfl | ⟨rest, e, rfl⟩
  · obtain ⟨rfl, he⟩ := List.append_inj' h rfl
    exact .inl ⟨rfl, (List.cons.inj he).1, rfl⟩
  · rw [List.concat_eq_append, ← List.cons_append, ← List.append_assoc] at h
    obtain ⟨rfl, he⟩ := List.append_inj' h rfl
    exact .inr ⟨rest, rfl, by rw [List.concat_eq_append, (List.cons.inj he).1]⟩

theorem AllOver.concat (h : AllOver past) (ho : opening? entry = none) :
    AllOver (past ++ [entry]) := by
  intro earlier a during heq ha
  rcases concat_eq_append_cons heq with ⟨-, rfl, -⟩ | ⟨rest, hpast, rfl⟩
  · rw [ho] at ha
    cases ha
  · obtain ⟨e, he, hout⟩ := h earlier a rest hpast ha
    exact ⟨e, List.mem_append_left _ he, hout⟩

/-- What is handed out ends the round that was open. -/
theorem allOver_concat (ho : opening? entry = none) (hout : (handedOut? entry).isSome) :
    AllOver (past ++ [entry]) := by
  intro earlier a during heq ha
  rcases concat_eq_append_cons heq with ⟨-, rfl, -⟩ | ⟨rest, -, rfl⟩
  · rw [ho] at ha
    cases ha
  · exact ⟨entry, by simp, hout⟩

theorem quiet_concat {during : List (Entry β)} :
    Quiet (during ++ [entry]) ↔
      Quiet during ∧ opening? entry = none ∧ handedOut? entry = none := by
  unfold Quiet
  rw [List.forall_mem_append, List.forall_mem_singleton]

/-- The last opening of a log is the only one with quiet behind it. -/
theorem quiet_unique {earlier during earlier' during' : List (Entry β)} {a a' : Entry β}
    (h : earlier ++ a :: during = earlier' ++ a' :: during') (ha : (opening? a).isSome)
    (ha' : (opening? a').isSome) (hq : Quiet during) (hq' : Quiet during') :
    a = a' ∧ during = during' := by
  induction earlier generalizing earlier' with
  | nil =>
    cases earlier' with
    | nil => exact List.cons.inj h
    | cons e earlier' =>
      obtain ⟨-, rfl⟩ := List.cons.inj h
      rw [(hq a' (by simp)).1] at ha'
      cases ha'
  | cons e earlier ih =>
    cases earlier' with
    | nil =>
      obtain ⟨-, rfl⟩ := List.cons.inj h
      rw [(hq' a (by simp)).1] at ha
      cases ha
    | cons e' earlier' => exact ih (List.cons.inj h).2

end Logs

/-! ## What has arrived -/

/-- Known parties, none of them twice. -/
structure Orderly (parties : Nat) (arrived : List (Int × β)) : Prop where
  nodup : (arrived.map (·.1)).Nodup
  known : ∀ e ∈ arrived, 0 ≤ e.1 ∧ e.1 < parties

namespace Orderly

variable {parties : Nat} {arrived : List (Int × β)}

theorem nil : Orderly parties ([] : List (Int × β)) := ⟨by simp, by simp⟩

theorem concat (h : Orderly parties arrived) (hlow : 0 ≤ party) (hhigh : party < parties)
    (hnew : party ∉ arrived.map (·.1)) (result : β) :
    Orderly parties (arrived ++ [(party, result)]) where
  nodup := by
    rw [List.map_append, List.map_singleton, List.nodup_append]
    refine ⟨h.nodup, by simp, fun key hkey key' hkey' heq => hnew ?_⟩
    rw [heq, List.mem_singleton.1 hkey'] at hkey
    exact hkey
  known e he := by
    rcases List.mem_append.1 he with he | he
    · exact h.known e he
    · rw [List.mem_singleton.1 he]
      exact ⟨hlow, hhigh⟩

theorem lookup_of_mem (h : Orderly parties arrived) (he : (party, result) ∈ arrived) :
    arrived.lookup party = some result := by
  obtain ⟨before, behind, rfl⟩ := List.append_of_mem he
  rw [List.lookup_eq_some_iff]
  refine ⟨before, behind, rfl, fun e hb => ?_⟩
  have hnodup := h.nodup
  rw [List.map_append, List.map_cons] at hnodup
  have := (List.nodup_append.1 hnodup).2.2 e.1 (List.mem_map_of_mem hb) party (by simp)
  simpa using this.symm

theorem filter_eq (h : Orderly parties arrived) (he : (party, result) ∈ arrived) :
    arrived.filter (·.1 = party) = [(party, result)] := by
  obtain ⟨before, behind, rfl⟩ := List.append_of_mem he
  have hnodup := h.nodup
  rw [List.map_append, List.map_cons] at hnodup
  obtain ⟨-, hbehind, hbefore⟩ := List.nodup_append.1 hnodup
  have hb : before.filter (·.1 = party) = [] := by
    rw [List.filter_eq_nil_iff]
    intro e he'
    simpa using hbefore e.1 (List.mem_map_of_mem he') party (by simp)
  have hb' : behind.filter (·.1 = party) = [] := by
    rw [List.filter_eq_nil_iff]
    intro e he'
    have hne : e.1 ≠ party := fun heq =>
      (List.nodup_cons.1 hbehind).1 (List.mem_map.2 ⟨e, he', heq⟩)
    simpa using hne
  rw [List.filter_append, List.filter_cons, hb, hb']
  simp

theorem keys_subperm (h : Orderly parties arrived) :
    (arrived.map (·.1)).Subperm ((List.range parties).map fun (p : Nat) => (p : Int)) := by
  refine List.subperm_of_subset h.nodup fun key hkey => ?_
  obtain ⟨e, he, rfl⟩ := List.mem_map.1 hkey
  obtain ⟨hlow, hhigh⟩ := h.known e he
  exact List.mem_map.2 ⟨e.1.toNat, List.mem_range.2 (by omega), by omega⟩

/-- When as many have arrived as there are parties, all have. -/
theorem keys_perm (h : Orderly parties arrived) (hall : arrived.length = parties) :
    (arrived.map (·.1)).Perm ((List.range parties).map fun (p : Nat) => (p : Int)) :=
  h.keys_subperm.perm_of_length_le (by simp [hall])

theorem exists_of_all (h : Orderly parties arrived) (hall : arrived.length = parties) {p : Nat}
    (hp : p < parties) : ∃ result, ((p : Int), result) ∈ arrived := by
  have hmem : (p : Int) ∈ arrived.map (·.1) :=
    (h.keys_perm hall).mem_iff.2 (List.mem_map.2 ⟨p, by simpa using hp, rfl⟩)
  obtain ⟨⟨_, result⟩, he, rfl⟩ := List.mem_map.1 hmem
  exact ⟨result, he⟩

/-- The results in the order of the parties are all results. -/
theorem results_perm (h : Orderly parties arrived) (hall : arrived.length = parties) :
    ((List.range parties).filterMap fun (p : Nat) => arrived.lookup (p : Int)).Perm
      (arrived.map (·.2)) := by
  have hkeys := (h.keys_perm hall).symm.filterMap (arrived.lookup ·)
  rw [List.filterMap_map, List.filterMap_map] at hkeys
  refine hkeys.trans (.of_eq ?_)
  rw [← List.filterMap_eq_map]
  exact List.filterMap_congr fun e he => h.lookup_of_mem he

/-- All have arrived when each has. -/
theorem length_eq (h : Orderly parties arrived)
    (hall : ∀ p : Nat, p < parties → ∃ result, ((p : Int), result) ∈ arrived) :
    arrived.length = parties := by
  have hsup : ((List.range parties).map fun (p : Nat) => (p : Int)).Subperm (arrived.map (·.1)) := by
    refine List.subperm_of_subset ?_ fun key hkey => ?_
    · exact List.Pairwise.map _ (fun _ _ hne heq => hne (Int.ofNat.inj heq)) List.nodup_range
    · obtain ⟨p, hp, rfl⟩ := List.mem_map.1 hkey
      obtain ⟨result, he⟩ := hall p (List.mem_range.1 hp)
      exact List.mem_map.2 ⟨_, he, rfl⟩
  simpa using Nat.le_antisymm h.keys_subperm.length_le hsup.length_le

end Orderly

/-! ## Where the barrier stands -/

/-- The barrier stands where the log says: it is closed and all rounds are over, or it is open for
    the last round that was opened and holds what has arrived since. -/
inductive Stands (past : List (Entry β)) (b : Barrier β) : Prop
  | closed (epoch : b.epoch = none) (arrived : b.arrived = []) (done : AllOver past)
  | inFlight (round : Int) (earlier during : List (Entry β)) (epoch : b.epoch = some round)
      (opened : past = earlier ++ (.openFor (some round), .ok none) :: during)
      (quiet : Quiet during)
      (arrived : arrivals during = b.arrived.map fun e => (e.1, some round, e.2))
      (orderly : Orderly b.parties b.arrived)

/-- What the barrier has been told, it holds or has handed out. -/
structure Tracks (parties : Nat) (past : List (Entry β)) (b : Barrier β) : Prop where
  parties_eq : b.parties = parties
  stands : Stands past b
  kept : (handedOut past ++ b.arrived.map (·.2)).Perm ((arrivals past).map (·.2.2))

section Steps

variable {parties : Nat} {past : List (Entry β)} {entry : Entry β}

/-- An entry that shows nothing changes nothing. -/
theorem Tracks.silent (h : Tracks parties past b) (entry : Entry β) (ho : opening? entry = none)
    (ha : arrival? entry = none) (hout : handedOut? entry = none) :
    Tracks parties (past ++ [entry]) b where
  parties_eq := h.parties_eq
  stands := by
    cases h.stands with
    | closed epoch arrived done => exact .closed epoch arrived (done.concat ho)
    | inFlight round earlier during epoch opened quiet arrived orderly =>
      refine .inFlight round earlier (during ++ [entry]) epoch (by simp [opened]) ?_ ?_ orderly
      · exact quiet_concat.2 ⟨quiet, ho, hout⟩
      · simp [arrivals_concat, ha, ← arrived]
  kept := by
    simpa [handedOut_concat, arrivals_concat, ha, hout] using h.kept

theorem Tracks.openFor (h : Tracks parties past b) (hok : b.openFor epoch = .ok b') :
    Tracks parties (past ++ [(.openFor epoch, .ok none)]) b' := by
  obtain ⟨hclosed, rfl⟩ := openFor_eq_ok.1 hok
  cases h.stands with
  | inFlight round _ _ hepoch =>
    rw [hclosed] at hepoch
    cases hepoch
  | closed _ harrived hdone =>
    have hb : { b with epoch, arrived := [] } = { b with epoch } := by rw [← harrived]
    rw [hb]
    refine ⟨h.parties_eq, ?_, ?_⟩
    · cases epoch with
      | none => exact .closed rfl harrived (hdone.concat rfl)
      | some round =>
        refine .inFlight round past [] rfl rfl (by simp [Quiet]) ?_ ?_
        · simp [arrivals, harrived]
        · simpa [harrived] using Orderly.nil
    · simpa [handedOut_concat, arrivals_concat, handedOut?, arrival?] using h.kept

theorem Tracks.arrive (h : Tracks parties past b) (hok : b.arrive party epoch result = .ok b') :
    Tracks parties (past ++ [(.arrive party epoch result, .ok none)]) b' := by
  obtain ⟨round, hround, rfl, hlow, hhigh, hnew, rfl⟩ := arrive_eq_ok.1 hok
  cases h.stands with
  | closed hepoch =>
    rw [hround] at hepoch
    cases hepoch
  | inFlight round' earlier during hepoch opened quiet arrived orderly =>
    rw [hround, Option.some.injEq] at hepoch
    subst hepoch
    refine ⟨h.parties_eq, ?_, ?_⟩
    · refine .inFlight round earlier (during ++ [_]) hround
        (by rw [opened, List.append_assoc, List.cons_append]) ?_ ?_ ?_
      · exact quiet_concat.2 ⟨quiet, rfl, rfl⟩
      · rw [arrivals_concat, arrived, List.map_append]
        rfl
      · exact orderly.concat hlow hhigh hnew result
    · simpa [handedOut_concat, arrivals_concat, handedOut?, arrival?] using
        h.kept.append_right [result]

theorem Tracks.handOut (h : Tracks parties past b) (hpos : 0 < parties)
    (hout : b.handOut? = some (results, b')) (wait : Wait) (timeUp : Bool) :
    Tracks parties (past ++ [(.look wait timeUp, .ok (some results))]) b' := by
  obtain ⟨hall, rfl, rfl⟩ := handOut?_eq_some.1 hout
  cases h.stands with
  | closed _ harrived =>
    -- nobody can have arrived
    rw [harrived, h.parties_eq, List.length_nil] at hall
    omega
  | inFlight round earlier during hepoch opened quiet arrived orderly =>
    refine ⟨h.parties_eq, .closed rfl rfl (allOver_concat rfl rfl), ?_⟩
    have hkept : (handedOut past ++ (List.range b.parties).filterMap
        fun (p : Nat) => b.arrived.lookup (p : Int)).Perm ((arrivals past).map (·.2.2)) :=
      ((orderly.results_perm hall).append_left _).trans h.kept
    simpa [handedOut_concat, arrivals_concat, handedOut?, arrival?] using hkept

theorem Tracks.call (h : Tracks parties past b) (hpos : 0 < parties) (c : Call β) :
    Tracks parties (past ++ [(c, (b.call c).1)]) (b.call c).2 := by
  cases c with
  | openFor epoch =>
    cases hok : b.openFor epoch with
    | error e => simpa only [Barrier.call, hok] using h.silent (_, .error e) rfl rfl rfl
    | ok b' => simpa only [Barrier.call, hok] using h.openFor hok
  | arrive party epoch result =>
    cases hok : b.arrive party epoch result with
    | error e => simpa only [Barrier.call, hok] using h.silent (_, .error e) rfl rfl rfl
    | ok b' => simpa only [Barrier.call, hok] using h.arrive hok
  | enter wait => exact h.silent _ rfl rfl rfl
  | look wait timeUp =>
    cases hok : b.look wait.epoch timeUp with
    | error e => simpa only [Barrier.call, hok] using h.silent (_, .error e) rfl rfl rfl
    | ok out =>
      obtain ⟨_ | results, b'⟩ := out
      · rw [eq_of_look_none hok] at hok
        have hcall : b.call (.look wait timeUp) = (.ok none, b) := by rw [Barrier.call, hok]
        simpa only [hcall] using h.silent (.look wait timeUp, .ok none) rfl rfl rfl
      · simpa only [Barrier.call, hok] using
          h.handOut hpos (look_eq_results.1 hok) wait timeUp

end Steps

/-! ## Any series of calls -/

/-- The results of a round: one from every party, each the only one that was accepted from it
    since the round was opened. -/
def Brought (n round : Int) (since : List (Entry β)) (results : List β) : Prop :=
  (results.length : Int) = n ∧ ∀ (party : Nat) (h : party < results.length),
    (arrivals since).filter (·.1 = (party : Int)) = [((party : Int), some round, results[party])]

/-- The results are those of the last round that was opened, and nobody has got results since. -/
def FromRound (n : Int) (past : List (Entry β)) (results : List β) : Prop :=
  ∃ round earlier since, past = earlier ++ (.openFor (some round), .ok none) :: since ∧
    Quiet since ∧ Brought n round since results

/-- The only looks are those of the wait itself, and it goes on waiting after each. -/
def Alone (wait : Wait) (during : List (Entry β)) : Prop :=
  ∀ e ∈ during, ∀ other timeUp, e.1 = .look other timeUp → other = wait ∧ e.2 = .ok none

theorem Alone.nothing_handedOut {during : List (Entry β)} (h : Alone wait during) :
    ∀ e ∈ during, handedOut? e = none := by
  rintro ⟨c, r⟩ he
  cases c with
  | look other timeUp =>
    obtain ⟨-, rfl⟩ : other = wait ∧ r = .ok none := h _ he other timeUp rfl
    rfl
  | _ => rfl

section Series

variable {parties : Nat} {past : List (Entry β)}

theorem tracks_start (parties : Nat) : Tracks parties [] (⟨parties, none, []⟩ : Barrier β) where
  parties_eq := rfl
  stands := .closed rfl rfl fun earlier _ _ h => by cases earlier <;> cases h
  kept := .nil

theorem tracks_after (hpos : 0 < parties) (calls : List (Call β)) :
    Tracks parties (History.log call ⟨parties, none, []⟩ calls)
      (History.after call ⟨parties, none, []⟩ calls) :=
  History.invariant (I := Tracks parties) (tracks_start parties)
    fun _ _ c _ h => h.call hpos c

theorem Tracks.fromRound (h : Tracks parties past b) (hpos : 0 < parties)
    (hout : b.handOut? = some (results, b')) : FromRound parties past results := by
  obtain ⟨hall, rfl, -⟩ := handOut?_eq_some.1 hout
  cases h.stands with
  | closed _ harrived =>
    -- nobody can have arrived
    rw [harrived, h.parties_eq, List.length_nil] at hall
    omega
  | inFlight round earlier during hepoch opened quiet arrived orderly =>
    obtain ⟨hlength, hget⟩ := Iteration.getElem?_filterMap_range
      (f := fun (p : Nat) => b.arrived.lookup (p : Int)) (n := b.parties) fun p hp => by
        obtain ⟨result, he⟩ := orderly.exists_of_all hall hp
        simp [orderly.lookup_of_mem he]
    refine ⟨round, earlier, during, opened, quiet, by rw [hlength, h.parties_eq], ?_⟩
    intro p hp
    obtain ⟨result, he⟩ := orderly.exists_of_all hall (hlength ▸ hp)
    have hresult := hget p (hlength ▸ hp)
    rw [List.getElem?_eq_getElem hp, orderly.lookup_of_mem he, Option.some.injEq] at hresult
    rw [arrived, List.filter_map, hresult]
    exact congrArg (List.map _) (orderly.filter_eq he)

/-- Nothing was handed out since the round was opened. -/
theorem FromRound.opening_mem {n : Int} {a : Entry β} {during : List (Entry β)}
    (h : FromRound n (past ++ a :: during) results) (ha : (handedOut? a).isSome) :
    ∃ e ∈ during, (opening? e).isSome := by
  obtain ⟨round, earlier, since, heq, hq, -⟩ := h
  have hne : a ≠ (.openFor (some round), .ok none) := by
    rintro rfl
    cases ha
  have hnew : a ∉ since := fun hmem => by
    rw [(hq a hmem).2] at ha
    cases ha
  rcases List.append_eq_append_iff.1 heq with ⟨mid, -, hmid⟩ | ⟨mid, -, hmid⟩
  · cases mid with
    | nil => exact absurd (List.cons.inj hmid).1 hne
    | cons _ mid =>
      exact ⟨(.openFor (some round), .ok none), by rw [(List.cons.inj hmid).2]; simp, rfl⟩
  · cases mid with
    | nil => exact absurd (List.cons.inj hmid).1.symm hne
    | cons _ mid => exact absurd (by rw [(List.cons.inj hmid).2]; simp) hnew

/-- A round is opened when all rounds before it are over. -/
theorem Tracks.allOver (h : Tracks parties past b) (hok : b.openFor epoch = .ok b') :
    AllOver past := by
  cases h.stands with
  | closed _ _ done => exact done
  | inFlight round _ _ hepoch =>
    rw [(openFor_eq_ok.1 hok).1] at hepoch
    cases hepoch

/-- The last opening of a log, with quiet behind it, is the round that the barrier is open for. -/
theorem Tracks.inFlight {round : Int} {earlier since : List (Entry β)}
    (h : Tracks parties (earlier ++ (.openFor (some round), .ok none) :: since) b)
    (hq : Quiet since) :
    b.epoch = some round ∧ arrivals since = (b.arrived.map fun e => (e.1, some round, e.2)) ∧
      Orderly b.parties b.arrived := by
  cases h.stands with
  | closed _ _ done =>
    obtain ⟨e, he, hout⟩ := done earlier _ since rfl rfl
    rw [(hq e he).2] at hout
    cases hout
  | inFlight round' earlier' since' hepoch opened quiet arrived orderly =>
    obtain ⟨ha, rfl⟩ := quiet_unique opened rfl rfl hq quiet
    cases ha
    exact ⟨hepoch, arrived, orderly⟩

/-- A wait begins under the last opening of its round. -/
theorem Tracks.begun {round : Int} (h : Tracks parties past b) (hround : b.epoch = some round) :
    ∃ earlier since, past = earlier ++ (.openFor (some round), .ok none) :: since ∧
      Quiet since := by
  cases h.stands with
  | closed hepoch =>
    rw [hround] at hepoch
    cases hepoch
  | inFlight round' earlier since hepoch opened quiet =>
    rw [hround, Option.some.injEq] at hepoch
    subst hepoch
    exact ⟨earlier, since, opened, quiet⟩

/-- Once every party has arrived for the round, a wait for it may begin and finds the results. -/
theorem Tracks.answers {round : Int} {earlier since : List (Entry β)}
    (h : Tracks parties (earlier ++ (.openFor (some round), .ok none) :: since) b)
    (hq : Quiet since) (hall : ∀ p : Nat, p < parties → ∃ e ∈ arrivals since, e.1 = p)
    (hwait : wait.epoch = some round) (timeUp : Bool) :
    (b.call (.enter wait)).1 = .ok none ∧
      ∃ results, (b.call (.look wait timeUp)).1 = .ok (some results) := by
  obtain ⟨hepoch, arrived, orderly⟩ := h.inFlight hq
  have hlength : b.arrived.length = b.parties := by
    refine orderly.length_eq fun p hp => ?_
    obtain ⟨e, he, hp⟩ := hall p (h.parties_eq ▸ hp)
    rw [arrived] at he
    obtain ⟨⟨party, result⟩, he', rfl⟩ := List.mem_map.1 he
    exact ⟨result, by rw [← hp]; exact he'⟩
  have henter := enter_eq_ok.2 (hwait.trans hepoch.symm)
  have hlook : b.look wait.epoch timeUp = _ :=
    look_eq_results.2 (handOut?_eq_some.2 ⟨hlength, rfl, rfl⟩)
  exact ⟨by rw [Barrier.call, henter]; rfl, _, by rw [Barrier.call, hlook]⟩

variable {calls : List (Call β)}

theorem fromRound_of_log (hpos : 0 < parties) {later : List (Entry β)}
    (hlog : History.log call ⟨parties, none, []⟩ calls
      = past ++ (.look wait timeUp, .ok (some results)) :: later) :
    FromRound parties past results := by
  obtain ⟨before, rest, -, rfl, hr⟩ := History.exists_of_log_eq hlog
  exact (tracks_after hpos before).fromRound hpos (look_eq_results.1 (call_look_of_ok hr))

theorem allOver_of_log (hpos : 0 < parties) {a : Entry β} {later : List (Entry β)}
    (hlog : History.log call ⟨parties, none, []⟩ calls = past ++ a :: later)
    (ha : (opening? a).isSome) : AllOver past := by
  obtain ⟨c, r⟩ := a
  obtain ⟨before, rest, -, rfl, hr⟩ := History.exists_of_log_eq hlog
  obtain ⟨epoch, answer, rfl, rfl⟩ : ∃ epoch answer, c = .openFor epoch ∧ r = .ok answer := by
    cases c <;> cases r <;> simp [opening?] at ha ⊢
  exact (tracks_after hpos before).allOver (call_openFor_of_ok hr)

/-- After an opening no round is opened before somebody has got results. -/
theorem quiet_of_log (hpos : 0 < parties) {a : Entry β} {since later : List (Entry β)}
    (hlog : History.log call ⟨parties, none, []⟩ calls = past ++ a :: (since ++ later))
    (ha : (opening? a).isSome) (hnone : ∀ e ∈ since, handedOut? e = none) : Quiet since := by
  refine fun e he => ⟨?_, hnone e he⟩
  obtain ⟨d, d', rfl⟩ := List.append_of_mem he
  by_contra hsome
  have hlog' : History.log call ⟨parties, none, []⟩ calls =
      (past ++ a :: d) ++ e :: (d' ++ later) := by
    rw [hlog]
    simp
  have hover := allOver_of_log hpos hlog' (Option.isSome_iff_ne_none.2 hsome)
  obtain ⟨out, hout, hsome⟩ := hover past a d rfl ha
  rw [hnone out (List.mem_append_left _ hout)] at hsome
  cases hsome

/-- A wait while which nobody else gets results gets those of the opening that it began under. -/
theorem begun_of_log (hpos : 0 < parties) {round : Int} {during later : List (Entry β)}
    (hwait : wait.epoch = some round)
    (hlog : History.log call ⟨parties, none, []⟩ calls = past ++ (.enter wait, .ok none) ::
      (during ++ (.look wait timeUp, .ok (some results)) :: later))
    (hnone : ∀ e ∈ during, handedOut? e = none) :
    ∃ earlier since, past = earlier ++ (.openFor (some round), .ok none) :: since ∧
      Quiet (since ++ (.enter wait, .ok none) :: during) ∧
      Brought parties round (since ++ (.enter wait, .ok none) :: during) results := by
  obtain ⟨before, rest, -, hbefore, hr⟩ := History.exists_of_log_eq hlog
  have htracks := tracks_after hpos before
  rw [hbefore] at htracks
  obtain ⟨earlier, since, hpast, hq⟩ := htracks.begun ((call_enter_of_ok hr).symm.trans hwait)
  have hopened : History.log call ⟨parties, none, []⟩ calls =
      earlier ++ (.openFor (some round), .ok none) ::
        ((since ++ (.enter wait, .ok none) :: during) ++
          (.look wait timeUp, .ok (some results)) :: later) := by
    rw [hlog, hpast]
    simp
  have hquiet : Quiet (since ++ (.enter wait, .ok none) :: during) :=
    quiet_of_log hpos hopened rfl <| List.forall_mem_append.2
      ⟨fun e he => (hq e he).2, List.forall_mem_cons.2 ⟨rfl, hnone⟩⟩
  rw [← List.cons_append, ← List.append_assoc] at hopened
  -- the last opening before the results is the one before the wait
  obtain ⟨round', earlier', since', heq, hq', hbrought⟩ := fromRound_of_log hpos hopened
  obtain ⟨ha, rfl⟩ := quiet_unique heq rfl rfl hquiet hq'
  cases ha
  exact ⟨earlier, since, hpast, hquiet, hbrought⟩

/-- When one waits at a time, every wait gets the results of the opening that it began under. -/
theorem begun_of_alone (hpos : 0 < parties) {round : Int} {during later : List (Entry β)}
    (hwait : wait.epoch = some round)
    (hlog : History.log call ⟨parties, none, []⟩ calls = past ++ (.enter wait, .ok none) ::
      (during ++ (.look wait timeUp, .ok (some results)) :: later))
    (halone : Alone wait during) :
    ∃ earlier since, past = earlier ++ (.openFor (some round), .ok none) :: since ∧
      Quiet (since ++ (.enter wait, .ok none) :: during) ∧
      Brought parties round (since ++ (.enter wait, .ok none) :: during) results :=
  begun_of_log hpos hwait hlog halone.nothing_handedOut

/-- Rounds are kept apart whatever is called in which order. Whoever waits with success gets the
    results of the last round that was opened, one from every party, and nobody else has got
    results since then: they are those of the opening under which the wait began, unless somebody
    else has got results meanwhile. Everything that was accepted is handed out once or is still
    held. A round is opened only when every round before it is over. Once every party has arrived,
    a wait for the round is answered. A call that fails changes nothing, nor does a wait before it
    gets its results. -/
theorem rounds_stay_apart {n : Int} {start : Barrier β} (h : ofParties n = .ok start)
    (calls : List (Call β)) :
    (∀ past wait timeUp results later,
      History.log call start calls = past ++ (.look wait timeUp, .ok (some results)) :: later →
        FromRound n past results ∧
        ∀ before a during, past = before ++ a :: during → (handedOut? a).isSome →
          ∃ e ∈ during, (opening? e).isSome) ∧
    (∀ before wait round during timeUp results later, wait.epoch = some round →
      History.log call start calls = before ++ (.enter wait, .ok none) ::
        (during ++ (.look wait timeUp, .ok (some results)) :: later) →
      (∀ e ∈ during, handedOut? e = none) →
        ∃ earlier since, before = earlier ++ (.openFor (some round), .ok none) :: since ∧
          Quiet (since ++ (.enter wait, .ok none) :: during) ∧
          Brought n round (since ++ (.enter wait, .ok none) :: during) results) ∧
    (handedOut (History.log call start calls) ++
        (History.after call start calls).arrived.map (·.2)).Perm
      ((arrivals (History.log call start calls)).map (·.2.2)) ∧
    (∀ past a later, History.log call start calls = past ++ a :: later → (opening? a).isSome →
      AllOver past) ∧
    (∀ earlier round since, History.log call start calls =
        earlier ++ (.openFor (some round), .ok none) :: since → Quiet since →
      (∀ p : Nat, p < n → ∃ e ∈ arrivals since, e.1 = p) →
      ∀ wait timeUp, wait.epoch = some round →
        (call (History.after call start calls) (.enter wait)).1 = .ok none ∧ ∃ results,
          (call (History.after call start calls) (.look wait timeUp)).1 = .ok (some results)) ∧
    ∀ c, ((∃ e, (call (History.after call start calls) c).1 = .error e) ∨
        ∃ wait, c = .enter wait ∨ ∃ timeUp, c = .look wait timeUp ∧
          (call (History.after call start calls) c).1 = .ok none) →
      (call (History.after call start calls) c).2 = History.after call start calls := by
  obtain ⟨parties, rfl, hpos, rfl⟩ : ∃ parties : Nat, n = parties ∧ 0 < parties ∧
      start = ⟨parties, none, []⟩ := by
    unfold ofParties at h
    split at h
    · cases h
    · cases h
      exact ⟨n.toNat, by omega, by omega, rfl⟩
  refine ⟨?_, ?_, (tracks_after hpos calls).kept, ?_, ?_, fun _ => call_of_unchanging⟩
  · intro past wait timeUp results later hlog
    have hround := fromRound_of_log hpos hlog
    refine ⟨hround, fun earlier a during heq ha => ?_⟩
    rw [heq] at hround
    exact hround.opening_mem ha
  · intro before wait round during timeUp results later hwait hlog hnone
    exact begun_of_log hpos hwait hlog hnone
  · intro past a later hlog ha
    exact allOver_of_log hpos hlog ha
  · intro earlier round since hlog hq hall wait timeUp hwait
    have htracks := tracks_after hpos calls
    rw [hlog] at htracks
    exact htracks.answers hq (fun p hp => hall p (by omega)) hwait timeUp

/-- Two parties: a wait that begins before anybody has come and runs out of time, one that begins
    after an arrival and lasts until the last one, arrivals that come twice or for another round,
    and the same round opened again. -/
theorem rounds_stay_apart_two :
    ∃ earlier since,
      History.log call (⟨2, none, []⟩ : Barrier Nat)
        [.openFor (some 1), .enter ⟨0, some 1⟩, .arrive 1 (some 1) 10, .look ⟨0, some 1⟩ true,
          .arrive 1 (some 1) 11, .arrive 0 (some 1) 12, .look ⟨0, some 1⟩ false, .openFor (some 1),
          .arrive 0 (some 1) 13] =
        earlier ++ (.openFor (some 1), .ok none) :: since ∧
      Quiet (since ++ (.enter ⟨7, some 1⟩, .ok none) ::
        History.log call (⟨2, some 1, [(0, 13)]⟩ : Barrier Nat)
          [.look ⟨7, some 1⟩ false, .arrive 1 (some 2) 14, .arrive 1 (some 1) 15]) ∧
      Brought 2 1 (since ++ (.enter ⟨7, some 1⟩, .ok none) ::
        History.log call (⟨2, some 1, [(0, 13)]⟩ : Barrier Nat)
          [.look ⟨7, some 1⟩ false, .arrive 1 (some 2) 14, .arrive 1 (some 1) 15]) [13, 15] :=
  (rounds_stay_apart (n := 2) rfl
    [.openFor (some 1), .enter ⟨0, some 1⟩, .arrive 1 (some 1) 10, .look ⟨0, some 1⟩ true,
      .arrive 1 (some 1) 11, .arrive 0 (some 1) 12, .look ⟨0, some 1⟩ false, .openFor (some 1),
      .arrive 0 (some 1) 13, .enter ⟨7, some 1⟩, .look ⟨7, some 1⟩ false, .arrive 1 (some 2) 14,
      .arrive 1 (some 1) 15, .look ⟨7, some 1⟩ true]).2.1 _ ⟨7, some 1⟩ 1 _ true _ [] rfl rfl
    (by simp [History.log, call, look, handOut?, arrive, handedOut?])

/-- Two waits that overlap: the second gets what was brought for a round after its own. -/
example :
    ((History.log call (⟨1, none, []⟩ : Barrier Nat)
      [.openFor (some 0), .enter ⟨0, some 0⟩, .enter ⟨1, some 0⟩, .arrive 0 (some 0) 10,
        .look ⟨0, some 0⟩ false, .openFor (some 1), .arrive 0 (some 1) 11,
        .look ⟨1, some 0⟩ false]).filterMap handedOut?) = [[10], [11]] := rfl

end Series

end Barrier
end ClusterRounds
