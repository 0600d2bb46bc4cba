import Mathlib.Data.List.Forall2
import Mathlib.Data.List.ReduceOption
import Netconf.Proofs.Agent.Exchange
import Netconf.Proofs.Agent.Stride

/-! The course of the loop, from a start on. The requests among the messages that it has taken are
those that it has decided and the one that it is about, in the order of the messages. Once it has
decided to end the session it takes nothing more. Each request has come to its own call, and a call
beside these is the farewell of a client that has hung up. -/
namespace Netconf

/-- Where the loop gets to from a start on, and what happens on the way. -/
inductive Course (terms : Terms) (start : Standing) : List Happening → Standing → Prop
  | start : Course terms start [] start
  | step {hs l : List Happening} {v w : Standing} (before : Course terms start hs v)
      (stride : Stride terms v l w) : Course terms start (hs ++ l) w

def decidedRequests (hs : List Happening) : List Rpc.Request := hs.filterMap Happening.decided?

/-- How often it has been decided to end the session. -/
def closings (hs : List Happening) : Nat :=
  (decidedRequests hs).countP fun r => r.operation = .closeSession

@[simp] theorem decidedRequests_append (hs l : List Happening) :
    decidedRequests (hs ++ l) = decidedRequests hs ++ decidedRequests l := List.filterMap_append

@[simp] theorem closings_append (hs l : List Happening) :
    closings (hs ++ l) = closings hs + closings l := by
  rw [closings, decidedRequests_append, List.countP_append]
  rfl

theorem takenMessages_of_quiet {l : List Happening} (h : ∀ e ∈ l, e.isCourse = false) :
    takenMessages l = [] := by
  apply takenMessages_of_not_intake
  intro e he
  have hquiet := h e he
  rw [Happening.isCourse, Bool.or_eq_false_iff] at hquiet
  exact hquiet.1

theorem decidedRequests_of_quiet {l : List Happening} (h : ∀ e ∈ l, e.isCourse = false) :
    decidedRequests l = [] := by
  rw [decidedRequests, List.filterMap_eq_nil_iff]
  intro e he
  have hquiet := h e he
  rw [Happening.isCourse, Bool.or_eq_false_iff] at hquiet
  exact Option.isSome_eq_false_iff.mp hquiet.2 |> Option.isNone_iff_eq_none.mp

theorem closings_of_quiet {l : List Happening} (h : ∀ e ∈ l, e.isCourse = false) :
    closings l = 0 := by
  rw [closings, decidedRequests_of_quiet h]
  rfl

namespace Station

/-- The request that the loop is about and has not decided yet. -/
def underWay : Station → Option Rpc.Request
  | judging m => FramedSession.requested? m
  | heeding r => r.request?
  | dispatching r => some r
  | _ => none

/-- The last message that the loop has taken is the one that it is about. -/
def Holds : Station → List Bytes → Prop
  | judging m, ms => ∃ before, ms = before ++ [m]
  | heeding r, ms => ∀ q, r = .request q →
      ∃ before m, ms = before ++ [m] ∧ FramedSession.requested? m = some q
  | dispatching r, ms => ∃ before m, ms = before ++ [m] ∧ FramedSession.requested? m = some r
  | _, _ => True

/-- Where the loop can stand when it has decided to end the session. -/
def isSpent : Station → Bool
  | replying _ _ => true
  | recording _ _ => true
  | looking => true
  | station => station.exit? = some .shutdown || station.exit? = some .closed

theorem underWay_of_isSpent {station : Station} (h : station.isSpent = true) :
    station.underWay = none := by
  cases station <;> first | rfl | cases h

theorem underWay_of_exit {station : Station} {exit : Exit} (h : station.exit? = some exit) :
    station.underWay = none := by
  cases station <;> first | rfl | cases h

theorem exit_of_isSpent {station : Station} (h : station.isSpent = true) {exit : Exit}
    (hexit : station.exit? = some exit) : exit = .shutdown ∨ exit = .closed := by
  unfold isSpent at h
  split at h
  · cases hexit
  · cases hexit
  · cases hexit
  · simpa [hexit] using h

/-- The call with which the loop takes leave of a client that has hung up. -/
def farewell (id : SessionId) (station : Station) : List Backend.Call :=
  if station.exit? = some .hungUp then [.close id] else []

end Station

variable {terms : Terms} {start v w : Standing} {hs l : List Happening}

namespace Stride

theorem allows (h : Stride terms v l w) (hv : v.station.Allows v.status) :
    w.station.Allows w.status := by
  cases h with
  | rest | arrive | ask => exact hv
  | proceed _ _ works => exact works
  | ready at_ | take at_ | starve at_ | attend at_ =>
    rw [at_] at hv
    exact hv
  | @judge _ m at_ _ =>
    rw [at_] at hv
    generalize (FramedSession.judge m).1 = r
    cases r with
    | request r => exact hv
    | _ => trivial
  | @decide r d call at_ asks =>
    rw [at_] at hv
    have hworks : v.status = .working := hv
    change r.statusAfter v.status ≠ .terminated
    unfold Rpc.Request.statusAfter
    rw [hworks]
    split <;> simp
  | _ => trivial

/-- A stride takes a message, decides a request, or does neither. -/
theorem course_cases (h : Stride terms v l w) :
    takenMessages l = [] ∧ decidedRequests l = [] ∨
      (∃ m, v.station = .receiving ∧ l = [.took m]) ∨
      ∃ r d, v.station = .dispatching r ∧ l = [.decided r d] := by
  cases h with
  | rest quiet | judge _ quiet | reply _ quiet =>
    exact .inl ⟨takenMessages_of_quiet quiet, decidedRequests_of_quiet quiet⟩
  | take at_ read => exact .inr (.inl ⟨_, at_, rfl⟩)
  | decide at_ asks => exact .inr (.inr ⟨_, _, at_, rfl⟩)
  | _ => exact .inl ⟨rfl, rfl⟩

/-- A session that does not work never works again. -/
theorem works_of_works (h : Stride terms v l w) (hw : w.status = .working) :
    v.status = .working ∧ closings l = 0 := by
  cases h with
  | rest quiet | judge _ quiet | reply _ quiet =>
    exact ⟨hw, closings_of_quiet quiet⟩
  | lose | shut => cases hw
  | @decide r d call at_ asks =>
    have hstatus : r.statusAfter v.status = .working := hw
    unfold Rpc.Request.statusAfter at hstatus
    split at hstatus
    · cases hstatus
    · next hr => exact ⟨hstatus, by simp [closings, decidedRequests, Happening.decided?, hr]⟩
  | _ => exact ⟨hw, rfl⟩

end Stride

namespace Course

theorem allows (h : Course terms start hs v) (hstart : start.station = .looking) :
    v.station.Allows v.status := by
  induction h with
  | start =>
    rw [hstart]
    trivial
  | step _ stride ih => exact stride.allows ih

theorem requests (h : Course terms start hs v) (hstart : start.station = .looking) :
    (takenMessages hs).filterMap FramedSession.requested? =
      decidedRequests hs ++ v.station.underWay.toList := by
  induction h with
  | start =>
    rw [hstart]
    rfl
  | @step hs l v w _ stride ih =>
    rw [takenMessages_append, List.filterMap_append, ih, decidedRequests_append]
    cases stride with
    | rest quiet =>
      rw [takenMessages_of_quiet quiet, decidedRequests_of_quiet quiet]
      simp
    | judge at_ quiet =>
      rw [takenMessages_of_quiet quiet, decidedRequests_of_quiet quiet, at_]
      simp [Station.underWay, FramedSession.requested?]
    | reply at_ quiet =>
      rw [takenMessages_of_quiet quiet, decidedRequests_of_quiet quiet, at_]
      simp [Station.underWay]
    | arrive | ask => exact (List.append_nil _).trans (congrArg (· ++ _) (List.append_nil _).symm)
    | @take m _ at_ _ =>
      rw [at_]
      cases hm : FramedSession.requested? m <;> simp [Station.underWay, takenMessages,
        decidedRequests, Happening.taken?, Happening.decided?, hm]
    | _ at_ =>
      simp [Station.underWay, takenMessages, decidedRequests, Happening.decided?,
        Happening.taken?, at_, Received.request?]

theorem holds (h : Course terms start hs v) (hstart : start.station = .looking) :
    v.station.Holds (takenMessages hs) := by
  induction h with
  | start =>
    rw [hstart]
    trivial
  | @step hs l v w _ stride ih =>
    rw [takenMessages_append]
    cases stride with
    | rest quiet =>
      rw [takenMessages_of_quiet quiet, List.append_nil]
      exact ih
    | arrive | ask =>
      change v.station.Holds (takenMessages hs ++ [])
      rw [List.append_nil]
      exact ih
    | take => exact ⟨takenMessages hs, rfl⟩
    | @judge _ m at_ quiet =>
      rw [at_] at ih
      obtain ⟨before, hbefore⟩ := ih
      rw [takenMessages_of_quiet quiet, List.append_nil]
      intro q hq
      exact ⟨before, m, hbefore, by rw [FramedSession.requested?, hq]; rfl⟩
    | @attend r at_ =>
      rw [at_] at ih
      change (Station.dispatching r).Holds (takenMessages hs ++ [])
      rw [List.append_nil]
      exact ih r rfl
    | close | lose =>
      intro q hq
      cases hq
    | _ => trivial

/-- While the session works it has not been decided to end it. -/
theorem closings_of_works (h : Course terms start hs v) (hv : v.status = .working) :
    closings hs = 0 := by
  induction h with
  | start => rfl
  | step _ stride ih =>
    obtain ⟨hworks, hnone⟩ := stride.works_of_works hv
    rw [closings_append, ih hworks, hnone]

/-- It is decided once at most to end the session, about the last message that is taken. -/
theorem closings_le (h : Course terms start hs v) (hstart : start.station = .looking) :
    closings hs ≤ 1 ∧ (closings hs ≠ 0 → ∃ before m r, takenMessages hs = before ++ [m] ∧
      FramedSession.requested? m = some r ∧ r.operation = .closeSession) := by
  induction h with
  | start => exact ⟨Nat.zero_le _, fun h => absurd rfl h⟩
  | @step hs l v w before stride ih =>
    have hallows := before.allows hstart
    obtain ⟨htaken, hdecided⟩ | ⟨m, hat, rfl⟩ | ⟨r, d, hat, rfl⟩ := stride.course_cases
    · have hnone : closings l = 0 := by
        rw [closings, hdecided]
        rfl
      rw [closings_append, hnone, takenMessages_append, htaken, List.append_nil]
      exact ih
    · rw [hat] at hallows
      have hnone : closings (hs ++ [.took m]) = 0 := by
        rw [closings_append, before.closings_of_works hallows]
        rfl
      exact ⟨by omega, fun h => absurd hnone h⟩
    · rw [hat] at hallows
      rw [closings_append, before.closings_of_works hallows]
      have hholds := before.holds hstart
      rw [hat] at hholds
      obtain ⟨others, m, htaken, hm⟩ := hholds
      refine ⟨?_, ?_⟩
      · rw [Nat.zero_add]
        exact List.countP_le_length
      · intro hcloses
        refine ⟨others, m, r, ?_, hm, ?_⟩
        · rw [takenMessages_append, htaken]
          exact List.append_nil _
        · by_contra hr
          simp [closings, decidedRequests, Happening.decided?, hr] at hcloses

/-- When it has been decided to end the session the loop goes on to its end. -/
theorem isSpent (h : Course terms start hs v) (hcloses : closings hs ≠ 0) :
    v.station.isSpent = true := by
  induction h with
  | start => exact absurd rfl hcloses
  | @step hs l v w before stride ih =>
    have hbefore : closings l = 0 → v.station.isSpent = true := by
      intro hl
      rw [closings_append, hl] at hcloses
      exact ih hcloses
    have hafter := (before.step stride).closings_of_works
    cases stride with
    | rest quiet => exact hbefore (closings_of_quiet quiet)
    | arrive | ask => exact hbefore rfl
    | obey | retire | timeout | interrupt | ignore | pass | decide | reply | record => rfl
    | proceed _ _ works => exact absurd (hafter works) hcloses
    | shut at_ | dismiss at_ | leave at_ =>
      have hspent := hbefore rfl
      rw [at_] at hspent
      exact hspent
    | judge at_ quiet =>
      have hspent := hbefore (closings_of_quiet quiet)
      rw [at_] at hspent
      cases hspent
    | _ at_ =>
      have hspent := hbefore rfl
      rw [at_] at hspent
      cases hspent

/-- Where the session ends for another reason it has not been decided to end it. -/
theorem closings_of_exit (h : Course terms start hs v) {exit : Exit}
    (hexit : v.station.exit? = some exit) (hne : exit ≠ .shutdown) (hne' : exit ≠ .closed) :
    closings hs = 0 := by
  by_contra hcloses
  obtain heq | heq := Station.exit_of_isSpent (h.isSpent hcloses) hexit
  · exact hne heq
  · exact hne' heq

/-- The session works, and does not end as one that has been closed, unless it has been decided to
end it or a message was in no proper frame. -/
theorem works (h : Course terms start hs v) (hstart : start.station = .looking)
    (hworks : start.status = .working) (hcloses : closings hs = 0) :
    (v.station.exit? = none → v.status = .working ∨ v.station = .heeding .unknown) ∧
      v.station.exit? ≠ some .closed := by
  induction h with
  | start =>
    rw [hstart]
    exact ⟨fun _ => .inl hworks, by simp [Station.exit?]⟩
  | @step hs l v w before stride ih =>
    rw [closings_append] at hcloses
    have hv := ih (by omega)
    -- Wherever the loop comes from, the session works there.
    have hwhere : ∀ {station : Station}, v.station = station → station.exit? = none →
        station ≠ .heeding .unknown → v.status = .working := by
      rintro station rfl hnone hne
      exact (hv.1 hnone).resolve_right hne
    cases stride with
    | rest | arrive | ask => exact hv
    | obey | refuse | fault | vanish | giveUp | hangUp =>
      exact ⟨by simp [Station.exit?], by simp [Station.exit?]⟩
    | retire at_ _ idle => exact absurd (hwhere at_ rfl (by simp)) idle
    | proceed _ _ works => exact ⟨fun _ => .inl works, by simp [Station.exit?]⟩
    | pass _ works => exact ⟨fun _ => .inl works, by simp [Station.exit?]⟩
    | lose => exact ⟨fun _ => .inr rfl, by simp [Station.exit?]⟩
    | @decide r d call at_ asks =>
      refine ⟨fun _ => .inl ?_, by simp [Station.exit?]⟩
      have hr : r.operation ≠ .closeSession := by
        intro hr
        simp [closings, decidedRequests, Happening.decided?, hr] at hcloses
      change r.statusAfter v.status = .working
      rw [Rpc.Request.statusAfter, if_neg hr]
      exact hwhere at_ rfl (by simp)
    | shut at_ | dismiss at_ | leave at_ =>
      rw [at_] at hv
      refine ⟨fun hnone => ?_, hv.2⟩
      cases hnone
    | _ at_ => exact ⟨fun _ => .inl (hwhere at_ rfl (by simp)), by simp [Station.exit?]⟩

/-- The calls are those that the decided requests come to, and the farewell. -/
theorem calls (h : Course terms start hs v) (hstart : start.station = .looking) :
    ∃ asked, List.Forall₂ (Rpc.Request.Asks terms.id) (decidedRequests hs) asked ∧
      v.calls = start.calls ++ asked.reduceOption ++ v.station.farewell terms.id := by
  induction h with
  | start =>
    refine ⟨[], .nil, ?_⟩
    rw [hstart]
    simp [Station.farewell, Station.exit?]
  | @step hs l v w before stride ih =>
    obtain ⟨asked, hasked, hcalls⟩ := ih
    -- A stride on which nothing is decided.
    have hnone : decidedRequests l = [] → w.calls =
        start.calls ++ asked.reduceOption ++ w.station.farewell terms.id →
        ∃ asked, List.Forall₂ (Rpc.Request.Asks terms.id) (decidedRequests (hs ++ l)) asked ∧
          w.calls = start.calls ++ asked.reduceOption ++ w.station.farewell terms.id := by
      intro hl hw
      rw [decidedRequests_append, hl, List.append_nil]
      exact ⟨asked, hasked, hw⟩
    cases stride with
    | rest quiet => exact hnone (decidedRequests_of_quiet quiet) hcalls
    | arrive | ask => exact hnone rfl hcalls
    | judge at_ quiet | reply at_ quiet =>
      rw [at_] at hcalls
      exact hnone (decidedRequests_of_quiet quiet) hcalls
    | vanish at_ | hangUp at_ =>
      rw [at_] at hcalls
      refine hnone rfl ?_
      change v.calls ++ _ = _
      rw [hcalls]
      simp [Station.farewell, Station.exit?]
    | @decide r d call at_ asks =>
      rw [at_] at hcalls
      refine ⟨asked ++ [call], ?_, ?_⟩
      · rw [decidedRequests_append]
        exact List.rel_append hasked (.cons asks .nil)
      · change v.calls ++ _ = _
        rw [hcalls]
        cases call <;> simp [Station.farewell, Station.exit?, List.reduceOption_append]
    | _ at_ =>
      rw [at_] at hcalls
      exact hnone rfl hcalls

/-- What the loop replies with is its last decision. -/
theorem decided_of_replying (h : Course terms start hs v) (hstart : start.station = .looking)
    {r : Rpc.Request} {d : Dispatch} (hat : v.station = .replying r d) :
    ∃ before between, hs = before ++ .decided r d :: between ∧ decidedRequests between = [] := by
  induction h with
  | start =>
    rw [hstart] at hat
    cases hat
  | @step hs l v w _ stride ih =>
    have hsame : decidedRequests l = [] → v.station = .replying r d → ∃ before between,
        hs ++ l = before ++ .decided r d :: between ∧ decidedRequests between = [] := by
      intro hl hv
      obtain ⟨before, between, rfl, hbetween⟩ := ih hv
      exact ⟨before, between ++ l, by simp, by rw [decidedRequests_append, hbetween, hl]; rfl⟩
    cases stride with
    | rest quiet => exact hsame (decidedRequests_of_quiet quiet) hat
    | arrive | ask => exact hsame rfl hat
    | decide =>
      cases hat
      exact ⟨hs, [], rfl, rfl⟩
    | _ => cases hat

end Course

theorem Running.Execution.course {β ρ : Type} [Backend.Server β] [Registry ρ]
    {start s : Running β ρ} {hs : List Happening} (run : Execution start hs s) :
    Course start.terms start.standing hs s.standing := by
  induction run with
  | start => exact .start
  | step before step ih => exact ih.step (before.stride step)

end Netconf
