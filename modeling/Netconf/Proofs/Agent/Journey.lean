import Netconf.Proofs.Agent.Course
import Netconf.Proofs.Agent.Motion
import Netconf.Proofs.Framing.Whole

/-! Agents at work that never stop. What comes in is used up and every message has its own few
steps, so that a loop that gets to move again and again, and never has to wait for its client, comes
to its end. -/
namespace Netconf

variable {terms : Terms} {start v w : Standing} {hs l : List Happening}

/-- What the loop is about to receive has begun to come in. -/
theorem Course.input_of_receiving (h : Course terms start hs v) (hstart : start.station = .looking)
    (hat : v.station = .receiving) : ∃ b rest, v.input = .byte b rest := by
  induction h with
  | start =>
    rw [hstart] at hat
    cases hat
  | step _ stride ih =>
    cases stride with
    | rest | ask => exact ih hat
    | arrive more =>
      obtain ⟨b, rest, hinput⟩ := ih hat
      exact ⟨b, rest.append more, congrArg (Incoming.append · more) hinput⟩
    | ready _ input => exact ⟨_, _, input⟩
    | _ => cases hat

/-- A loop on its way to an exit stays on it. -/
theorem Stride.exit_of_exit (h : Stride terms v l w) {exit : Exit}
    (hv : v.station.exit? = some exit) : w.station.exit? = some exit := by
  cases h with
  | rest | arrive | ask => exact hv
  | shut at_ | dismiss at_ | leave at_ =>
    rw [at_] at hv
    exact hv
  | _ at_ =>
    rw [at_] at hv
    cases hv

/-- When something comes in, that is all that happens. -/
theorem Stride.arrived (h : Stride terms v l w) {more : Incoming} (hmore : .arrived more ∈ l) :
    l = [.arrived more] := by
  cases h with
  | rest quiet | judge _ quiet | reply _ quiet =>
    have hcourse := quiet _ hmore
    cases hcourse
  | arrive more' =>
    cases List.mem_singleton.mp hmore
    rfl
  | take | decide => cases List.mem_singleton.mp hmore
  | _ => cases hmore

/-- Who has been asked to end has been asked for good. -/
theorem Stride.asked_of_asked (h : Stride terms v l w) (hv : v.asked = true) : w.asked = true := by
  cases h with
  | ask => rfl
  | _ => exact hv

namespace Standing

/-- How far the loop is from its end at most, if it does not have to wait. A loop that has been
asked to end has less to go when it looks. -/
def toGo (v : Standing) : Nat :=
  16 * v.input.size + match v.station with
    | .judging _ => 17
    | .heeding _ => 16
    | .dispatching _ => 15
    | .replying _ _ => 14
    | .recording _ _ => 13
    | .looking => if v.asked then 4 else 12
    | .waiting => 11
    | .receiving => 10
    | .closing _ => 3
    | .dismissing _ => 2
    | .leaving _ => 1
    | .ended _ => 0

/-- The loop does not have to wait for its client: it has been asked to end, or something has come
in when it waits, and what it receives has come in whole. -/
structure GoesOn (terms : Terms) (v : Standing) : Prop where
  hears : v.station = .waiting → v.input = .silent → v.asked = true
  begun : v.station = .receiving → ∃ b rest, v.input = .byte b rest
  whole : v.station = .receiving → (terms.read v.input).1 ≠ .blocked

theorem GoesOn.read_size_lt (h : v.GoesOn terms) (hat : v.station = .receiving)
    {outcome : Framing.Outcome} {rest : Incoming} (read : terms.read v.input = (outcome, rest)) :
    rest.size < v.input.size := by
  obtain ⟨b, more, hinput⟩ := h.begun hat
  have hless := Framing.read_byte_size_lt terms.framing terms.limit b more
  rw [← hinput] at hless
  unfold Terms.read at read
  rw [read] at hless
  exact hless

end Standing

namespace Stride

/-- A loop that goes elsewhere gets nearer to its end. -/
theorem toGo_lt (h : Stride terms v l w) (hv : v.GoesOn terms) (hmoves : w.station ≠ v.station) :
    w.toGo < v.toGo := by
  cases h with
  | rest | arrive | ask => exact absurd rfl hmoves
  | obey at_ asked => simp [Standing.toGo, at_, asked]
  | retire at_ unasked => simp [Standing.toGo, at_, unasked]
  | proceed at_ unasked => simp [Standing.toGo, at_, unasked]
  | timeout at_ input => simp [Standing.toGo, at_, hv.hears at_ input]
  | interrupt at_ input =>
    simp only [Standing.toGo, at_, input, Incoming.size]
    split <;> omega
  | fault at_ input =>
    simp only [Standing.toGo, at_, input, Incoming.size]
    omega
  | take at_ read | close at_ read | lose at_ read =>
    have hless := hv.read_size_lt at_ read
    simp only [Standing.toGo, at_]
    omega
  | starve at_ read => exact absurd (congrArg Prod.fst read) (hv.whole at_)
  | ignore at_ | pass at_ | record at_ =>
    simp only [Standing.toGo, at_]
    split <;> omega
  | _ at_ => simp [Standing.toGo, at_]

/-- A loop that stays where it is does not get farther from its end, if nothing more comes in. -/
theorem toGo_le (h : Stride terms v l w) (hv : v.GoesOn terms)
    (hall : ∀ more, .arrived more ∈ l → v.input.append more = v.input) : w.toGo ≤ v.toGo := by
  by_cases hmoves : w.station = v.station
  · cases h with
    | rest => exact Nat.le_refl _
    | arrive more =>
      have hsame := hall more (List.mem_singleton_self _)
      simp [Standing.toGo, hsame]
    | ask =>
      simp only [Standing.toGo]
      cases v.station with
      | looking => cases v.asked <;> simp
      | _ => exact Nat.le_refl _
    | _ at_ =>
      rw [at_] at hmoves
      cases hmoves
  · exact Nat.le_of_lt (h.toGo_lt hv hmoves)

end Stride

namespace Running

variable {β ρ : Type} [Backend.Server β] [Registry ρ] {start : Running β ρ}

/-- An agent at work that never stops, at its end included. -/
structure Journey (start : Running β ρ) where
  state : Nat → Running β ρ
  happens : Nat → List Happening
  begins : state 0 = start
  goes : ∀ n, Step (state n) (happens n) (state (n + 1))

namespace Journey

/-- What has happened so far. -/
def happened (j : Journey start) : Nat → List Happening
  | 0 => []
  | n + 1 => j.happened n ++ j.happens n

/-- The loop gets to move again and again: nothing that it does but waiting for its client lasts
for good. -/
def IsFair (j : Journey start) : Prop := ∀ n, ∃ m, n ≤ m ∧ (j.state m).Moves (j.state (m + 1))

variable {j : Journey start}

theorem execution (j : Journey start) (n : Nat) : Execution start (j.happened n) (j.state n) := by
  induction n with
  | zero =>
    rw [j.begins]
    exact .start
  | succ n ih => exact ih.step (j.goes n)

theorem stride (j : Journey start) (n : Nat) :
    Stride start.terms (j.state n).standing (j.happens n) (j.state (n + 1)).standing :=
  (j.execution n).stride (j.goes n)

theorem asked_of_le {n m : Nat} (hle : n ≤ m) (h : (j.state n).standing.asked = true) :
    (j.state m).standing.asked = true := by
  induction hle with
  | refl => exact h
  | step _ ih => exact (j.stride _).asked_of_asked ih

theorem exit_of_le {n m : Nat} (hle : n ≤ m) {exit : Exit}
    (h : (j.state n).station.exit? = some exit) : (j.state m).station.exit? = some exit := by
  induction hle with
  | refl => exact h
  | step _ ih => exact (j.stride _).exit_of_exit ih

/-- A loop that gets to move again and again goes elsewhere, or is at its end. -/
theorem exists_elsewhere (fresh : start.IsFresh) (fair : j.IsFair) (n : Nat) :
    ∃ m, n ≤ m ∧ ((j.state (m + 1)).station ≠ (j.state m).station ∨
      ∃ exit, (j.state m).station = .ended exit) := by
  obtain ⟨k, hk, hmoves⟩ := fair n
  obtain ⟨helse, -⟩ | ⟨-, -, m, hm, -⟩ | ⟨exit, hended, -⟩ :=
    hmoves.cases ((j.execution k).utters fresh)
  · exact ⟨k, hk, .inl helse⟩
  · -- It has turned to a message, and goes elsewhere with its next move at the latest.
    by_contra hnone
    push Not at hnone
    have hkeeps : ∀ i, k + 1 ≤ i → (j.state i).wants .loop ≠ none := by
      intro i hi
      induction hi with
      | refl => simp [hm]
      | @step i hi ih =>
        change k + 1 ≤ i at hi
        obtain ⟨-, hwants⟩ | hmoves := (j.goes i).rests_or_moves
        · rw [hwants]
          exact ih
        · have helse := hmoves.elsewhere ((j.execution i).utters fresh) ih
          exact absurd (hnone i (by omega)).1 helse
    obtain ⟨i, hi, hmoves⟩ := fair (k + 1)
    have helse := hmoves.elsewhere ((j.execution i).utters fresh) (hkeeps i hi)
    exact helse (hnone i (by omega)).1
  · exact ⟨k, hk, .inr ⟨exit, hended⟩⟩

/-- A loop that gets to move again and again and does not have to wait comes to its end. -/
theorem exists_ended (fresh : start.IsFresh) (fair : j.IsFair) (n : Nat)
    (goes : ∀ m, n ≤ m → (j.state m).standing.GoesOn start.terms)
    (hall : ∀ m, n ≤ m → ∀ more, .arrived more ∈ j.happens m →
      (j.state m).standing.input.append more = (j.state m).standing.input) :
    ∃ m exit, (j.state m).station = .ended exit := by
  -- Until it goes elsewhere it does not get farther from its end, and then it gets nearer.
  induction hgo : (j.state n).standing.toGo using Nat.strongRecOn generalizing n with
  | ind togo ih =>
    have hle : ∀ m, n ≤ m → (j.state m).standing.toGo ≤ togo := by
      intro m hm
      induction hm with
      | refl => exact Nat.le_of_eq hgo
      | @step m hm ih => exact Nat.le_trans ((j.stride m).toGo_le (goes m hm) (hall m hm)) ih
    obtain ⟨m, hm, helse | ⟨exit, hended⟩⟩ := exists_elsewhere fresh fair n
    · have hless := (j.stride m).toGo_lt (goes m hm) helse
      exact ih _ (Nat.lt_of_lt_of_le hless (hle m hm)) (m + 1) (fun i hi => goes i (by omega))
        (fun i hi => hall i (by omega)) rfl
    · exact ⟨m, exit, hended⟩

/-- A step before a journey. -/
def cons {s t : Running β ρ} {l : List Happening} (step : Step s l t) (j : Journey t) :
    Journey s where
  state
    | 0 => s
    | n + 1 => j.state n
  happens
    | 0 => l
    | n + 1 => j.happens n
  begins := rfl
  goes
    | 0 => by
      change Step s l (j.state 0)
      rw [j.begins]
      exact step
    | n + 1 => j.goes n

theorem happened_cons {s t : Running β ρ} {l : List Happening} (step : Step s l t)
    (j : Journey t) (n : Nat) : (j.cons step).happened (n + 1) = l ++ j.happened n := by
  induction n with
  | zero => exact (List.append_nil l).symm
  | succ n ih =>
    rw [happened, ih, List.append_assoc]
    rfl

theorem IsFair.cons {s t : Running β ρ} {l : List Happening} {j : Journey t} (fair : j.IsFair)
    (step : Step s l t) : (j.cons step).IsFair := by
  intro n
  obtain ⟨m, hm, hmoves⟩ := fair n
  exact ⟨m + 1, by omega, hmoves⟩

end Journey

/-- Whatever has happened, a journey from there on is the rest of one from the start on. -/
theorem Execution.exists_journey {s : Running β ρ} {hs : List Happening}
    (run : Execution start hs s) (j : Journey s) : ∃ (j' : Journey start) (k : Nat),
      (j.IsFair → j'.IsFair) ∧
        ∀ n, j'.state (k + n) = j.state n ∧ j'.happened (k + n) = hs ++ j.happened n := by
  induction run with
  | start => exact ⟨j, 0, id, fun n => by rw [Nat.zero_add]; exact ⟨rfl, rfl⟩⟩
  | @step hs l s t before step ih =>
    obtain ⟨j', k, hfair, hj⟩ := ih (j.cons step)
    refine ⟨j', k + 1, fun fair => hfair (fair.cons step), fun n => ?_⟩
    obtain ⟨hstate, hhappened⟩ := hj (n + 1)
    rw [Nat.add_assoc, Nat.add_comm 1 n, hstate, hhappened, Journey.happened_cons,
      List.append_assoc]
    exact ⟨rfl, rfl⟩

/-! The journey on which only the loop moves, and none of its messages gets out. -/

def alone (s : Running β ρ) : List Happening × Running β ρ :=
  match s.wants .loop with
  | none => s.loopStep
  | some m => ([.broke .loop], (s.quit .loop).goOn .loop m)

theorem alone_step (s : Running β ρ) : Step s s.alone.1 s.alone.2 := by
  unfold alone
  cases hm : s.wants .loop with
  | none => exact .loop s hm
  | some m => exact .fail s hm

theorem alone_moves (s : Running β ρ) : s.Moves s.alone.2 := by
  unfold alone
  cases hm : s.wants .loop with
  | none => exact .free hm
  | some m => exact .goOn hm

theorem alone_not_arrived (s : Running β ρ) (more : Incoming) : .arrived more ∉ s.alone.1 := by
  intro hmore
  unfold alone at hmore
  split at hmore
  · unfold loopStep at hmore
    cases hst : s.station <;> rw [hst] at hmore
    case receiving =>
      dsimp only [receive] at hmore
      split at hmore <;> simp at hmore
    case judging m =>
      dsimp only [judge] at hmore
      split at hmore <;> simp [want] at hmore
    case replying r d =>
      dsimp only [reply] at hmore
      split at hmore <;> simp [want] at hmore
    all_goals simp [dispatch] at hmore
  · simp at hmore

/-- Where the loop gets to alone. -/
def aloneFor (s : Running β ρ) : Nat → Running β ρ
  | 0 => s
  | n + 1 => (s.aloneFor n).alone.2

def Journey.ofAlone (s : Running β ρ) : Journey s where
  state := s.aloneFor
  happens n := (s.aloneFor n).alone.1
  begins := rfl
  goes _ := alone_step _

theorem Journey.ofAlone_isFair (s : Running β ρ) : (ofAlone s).IsFair := by
  intro n
  exact ⟨n, Nat.le_refl n, alone_moves _⟩

theorem Journey.happened_ofAlone (s : Running β ρ) (n : Nat) (more : Incoming) :
    .arrived more ∉ (ofAlone s).happened n := by
  induction n with
  | zero => simp [happened]
  | succ n ih =>
    intro hmore
    obtain hbefore | hnow := List.mem_append.mp hmore
    · exact ih hbefore
    · exact alone_not_arrived _ more hnow

end Running
end Netconf
