import Netconf.Session.Snapshot

/-! The life of a session's record, from the beginning of the session on. Whatever is done to it, a
record that has ended stays ended, what it counts are the events of its session, and no event says a
second time that the session has been closed. -/
namespace Netconf

/-- Something that is done to a record. -/
inductive RecordStep where
  /-- The status of the session itself is taken over. -/
  | observe (status : Status)
  | handled (operation : String) (failed : Bool)
  | rejected
  | subscribed
  | close (reason : String)
  /-- The record is had back from its snapshot. -/
  | restore
deriving DecidableEq, Repr

/-- What a step makes of a record and the event that it gives, or why it fails. -/
def SessionRecord.step (r : SessionRecord) :
    RecordStep → Except RecordError (SessionRecord × Option SessionEvent)
  | .observe status => .ok (r.observe status, none)
  | .handled operation failed => (r.handled operation failed).map fun p => (p.1, some p.2)
  | .rejected => .ok (r.rejected.1, some r.rejected.2)
  | .subscribed => .ok (r.subscribed.1, some r.subscribed.2)
  | .close reason => (r.close reason).map fun p => (p.1, some p.2)
  | .restore => .ok (r.snapshot.restore, none)

/-! Numbers of entries of a list in words of 64 bits, which is how counters have them. -/

/-- How many entries of a list are of a kind, in a word. -/
def countWord {α : Type} (p : α → Bool) (l : List α) : UInt64 := .ofNat (l.countP p)

theorem countP_concat {α : Type} (p : α → Bool) (l : List α) (x : α) :
    (l ++ [x]).countP p = l.countP p + (p x).toNat := by
  rw [List.countP_append, List.countP_singleton]
  cases p x <;> rfl

theorem countWord_concat {α : Type} (p : α → Bool) (l : List α) (x : α) :
    countWord p (l ++ [x]) = if p x then countWord p l + 1 else countWord p l := by
  rw [countWord, countP_concat]
  cases p x with
  | true => exact UInt64.ofNat_add ..
  | false => rfl

/-- A word that is large enough has the number itself. -/
theorem toNat_countWord {α : Type} {p : α → Bool} {l : List α} (h : l.countP p < UInt64.size) :
    (countWord p l).toNat = l.countP p := UInt64.toNat_ofNat_of_lt' h

theorem toNat_countWord_of_length {α : Type} {p : α → Bool} {l : List α}
    (h : l.length < UInt64.size) : (countWord p l).toNat = l.countP p :=
  toNat_countWord (Nat.lt_of_le_of_lt List.countP_le_length h)

namespace SessionEvent

/-- Whether a request has been handled. -/
def isHandled : SessionEvent → Bool
  | handled _ _ => true
  | _ => false

/-- Whether a request has been handled that failed. -/
def isFailure : SessionEvent → Bool
  | handled _ failed => failed
  | _ => false

/-- Whether the session has been closed. -/
def isClosed : SessionEvent → Bool
  | closed _ => true
  | _ => false

/-- How often things have happened that are counted. -/
def counts (events : List SessionEvent) : Counters where
  requests := countWord isHandled events
  badRequests := countWord (· == rejected) events
  errors := countWord isFailure events
  subscriptions := countWord (· == subscribed) events

theorem counts_concat (events : List SessionEvent) (e : SessionEvent) :
    counts (events ++ [e]) =
      let c := counts events
      { requests := if e.isHandled then c.requests + 1 else c.requests
        badRequests := if e == rejected then c.badRequests + 1 else c.badRequests
        errors := if e.isFailure then c.errors + 1 else c.errors
        subscriptions := if e == subscribed then c.subscriptions + 1 else c.subscriptions } := by
  simp only [counts, countWord_concat]

/-- Counters have the numbers of events themselves, as long as these are fewer than there are
words. -/
theorem toNat_counts {events : List SessionEvent} (h : events.length < UInt64.size) :
    (counts events).requests.toNat = events.countP isHandled ∧
    (counts events).badRequests.toNat = events.count rejected ∧
    (counts events).errors.toNat = events.countP isFailure ∧
    (counts events).subscriptions.toNat = events.count subscribed :=
  ⟨toNat_countWord_of_length h, toNat_countWord_of_length h, toNat_countWord_of_length h,
    toNat_countWord_of_length h⟩

end SessionEvent

/-- A record with the events of its session so far, the oldest first. -/
structure Chronicle where
  record : SessionRecord
  events : List SessionEvent
deriving DecidableEq, Repr

namespace Chronicle

/-- The beginning of a session. -/
def begin (id : SessionId) (username : Option String) (capabilities : Capabilities)
    (now : Time.Instant) : Chronicle where
  record := (SessionRecord.establish id username capabilities now).1
  events := [(SessionRecord.establish id username capabilities now).2]

/-- A step more. If it fails, everything stays as it is. -/
def take (c : Chronicle) (s : RecordStep) : Chronicle :=
  match c.record.step s with
  | .ok (record, event) => { record, events := c.events ++ event.toList }
  | .error _ => c

/-- What some steps lead to. -/
def after (c : Chronicle) (steps : List RecordStep) : Chronicle := steps.foldl take c

variable {c : Chronicle}

theorem after_cons (c : Chronicle) (s : RecordStep) (steps : List RecordStep) :
    c.after (s :: steps) = (c.take s).after steps := rfl

/-! Records that have ended. -/

theorem handled_of_terminated (h : c.record.status = .terminated) (operation : String)
    (failed : Bool) : c.record.handled operation failed = .error .requestAfterEnd := if_pos h

theorem close_of_terminated (h : c.record.status = .terminated) (reason : String) :
    c.record.close reason = .error .alreadyClosed := if_pos h

theorem take_of_error {s : RecordStep} {e : RecordError} (h : c.record.step s = .error e) :
    c.take s = c := by
  rw [take, h]

theorem take_handled_of_terminated (h : c.record.status = .terminated) (operation : String)
    (failed : Bool) : c.take (.handled operation failed) = c := by
  apply take_of_error
  rw [SessionRecord.step, handled_of_terminated h]
  rfl

theorem take_close_of_terminated (h : c.record.status = .terminated) (reason : String) :
    c.take (.close reason) = c := by
  apply take_of_error
  rw [SessionRecord.step, close_of_terminated h]
  rfl

/-- The events that a step adds to a record that has ended are of two kinds. -/
theorem take_of_terminated (h : c.record.status = .terminated) (s : RecordStep) :
    (c.take s).record.status = .terminated ∧ ∃ more, (c.take s).events = c.events ++ more ∧
      ∀ e ∈ more, e = .rejected ∨ e = .subscribed := by
  cases s with
  | observe status =>
    have hsame : c.record.observe status = c.record := if_pos h
    exact ⟨by rw [take, SessionRecord.step, hsame]; exact h, [], rfl, by simp⟩
  | handled operation failed =>
    rw [take_handled_of_terminated h]
    exact ⟨h, [], (List.append_nil _).symm, by simp⟩
  | rejected => exact ⟨h, [.rejected], rfl, by simp⟩
  | subscribed => exact ⟨h, [.subscribed], rfl, by simp⟩
  | close reason =>
    rw [take_close_of_terminated h]
    exact ⟨h, [], (List.append_nil _).symm, by simp⟩
  | restore => exact ⟨h, [], rfl, by simp⟩

theorem after_of_terminated (h : c.record.status = .terminated) (steps : List RecordStep) :
    (c.after steps).record.status = .terminated := by
  induction steps generalizing c with
  | nil => exact h
  | cons s steps ih => exact ih (take_of_terminated h s).1

/-! Counters and events. -/

/-- The counters count the events. Once the session has been closed its record has ended, and no
request has been handled behind that, nor has the session been closed again. -/
structure IsCoherent (c : Chronicle) : Prop where
  counted : c.record.counters = SessionEvent.counts c.events
  ended : ∀ e ∈ c.events, e.isClosed = true → c.record.status = .terminated
  last : c.events.Pairwise fun e e' => e.isClosed = true →
    e'.isClosed = false ∧ e'.isHandled = false

namespace IsCoherent

theorem begin (id : SessionId) (username : Option String) (capabilities : Capabilities)
    (now : Time.Instant) : (begin id username capabilities now).IsCoherent where
  counted := rfl
  ended := by simp [Chronicle.begin, SessionRecord.establish, SessionEvent.isClosed]
  last := List.pairwise_singleton ..

/-- An event more, behind which the session may have been closed if its record was open. -/
theorem concat (h : c.IsCoherent) (record : SessionRecord) {e : SessionEvent}
    (hcounted : record.counters = SessionEvent.counts (c.events ++ [e]))
    (hstays : c.record.status = .terminated → record.status = .terminated)
    (hended : e.isClosed = true → record.status = .terminated)
    (hlast : c.record.status = .terminated → e.isClosed = false ∧ e.isHandled = false) :
    IsCoherent { record, events := c.events ++ [e] } where
  counted := hcounted
  ended := by
    intro e' he' hclosed
    obtain hold | hnew := List.mem_append.mp he'
    · exact hstays (h.ended e' hold hclosed)
    · exact hended (List.mem_singleton.mp hnew ▸ hclosed)
  last := by
    refine List.pairwise_append.mpr ⟨h.last, List.pairwise_singleton .., ?_⟩
    intro e' he' e'' he'' hclosed
    rw [List.mem_singleton.mp he'']
    exact hlast (h.ended e' he' hclosed)

/-- A step without an event. -/
theorem silent (h : c.IsCoherent) (record : SessionRecord)
    (hcounters : record.counters = c.record.counters)
    (hstays : c.record.status = .terminated → record.status = .terminated) :
    IsCoherent { record, events := c.events ++ [] } := by
  rw [List.append_nil]
  exact ⟨hcounters.trans h.counted, fun e he hclosed => hstays (h.ended e he hclosed), h.last⟩

theorem take (h : c.IsCoherent) (s : RecordStep) : (c.take s).IsCoherent := by
  cases s with
  | observe status =>
    refine h.silent (c.record.observe status) ?_ fun hended => ?_
    · unfold SessionRecord.observe
      split <;> rfl
    · rwa [SessionRecord.observe, if_pos hended]
  | handled operation failed =>
    by_cases hended : c.record.status = .terminated
    · rwa [take_handled_of_terminated hended]
    · have hstep : c.take (.handled operation failed) =
          { record := { c.record with counters := { c.record.counters with
              requests := c.record.counters.requests + 1
              errors := if failed then c.record.counters.errors + 1
                else c.record.counters.errors } }
            events := c.events ++ [.handled operation failed] } := by
        simp [Chronicle.take, SessionRecord.step, SessionRecord.handled, hended, Except.map]
      rw [hstep]
      refine h.concat _ ?_ id nofun fun h => absurd h hended
      rw [SessionEvent.counts_concat, ← h.counted]
      cases failed <;> rfl
  | rejected =>
    refine h.concat c.record.rejected.1 ?_ id nofun fun _ => ⟨rfl, rfl⟩
    rw [SessionEvent.counts_concat, ← h.counted]
    rfl
  | subscribed =>
    refine h.concat c.record.subscribed.1 ?_ id nofun fun _ => ⟨rfl, rfl⟩
    rw [SessionEvent.counts_concat, ← h.counted]
    rfl
  | close reason =>
    by_cases hended : c.record.status = .terminated
    · rwa [take_close_of_terminated hended]
    · have hstep : c.take (.close reason) =
          { record := { c.record with status := .terminated }
            events := c.events ++ [.closed reason] } := by
        simp [Chronicle.take, SessionRecord.step, SessionRecord.close, hended, Except.map]
      rw [hstep]
      refine h.concat _ ?_ (fun _ => rfl) (fun _ => rfl) fun h => absurd h hended
      rw [SessionEvent.counts_concat, ← h.counted]
      rfl
  | restore => exact h.silent c.record.snapshot.restore rfl id

theorem after (h : c.IsCoherent) (steps : List RecordStep) : (c.after steps).IsCoherent := by
  induction steps generalizing c with
  | nil => exact h
  | cons s steps ih => exact ih (h.take s)

theorem quiet_behind_close (h : c.IsCoherent) {before later : List SessionEvent} {reason : String}
    (hevents : c.events = before ++ .closed reason :: later) :
    ∀ e ∈ later, e.isClosed = false ∧ e.isHandled = false := by
  have hlast := h.last
  rw [hevents, List.pairwise_append, List.pairwise_cons] at hlast
  exact fun e he => hlast.2.1.1 e he rfl

theorem countP_isClosed_le (h : c.IsCoherent) : c.events.countP SessionEvent.isClosed ≤ 1 := by
  have hlast := h.last
  generalize c.events = events at hlast
  induction hlast with
  | nil => exact Nat.zero_le 1
  | @cons e events he _ ih =>
    cases hclosed : e.isClosed with
    | false => rwa [List.countP_cons_of_neg (by simp [hclosed])]
    | true =>
      have hnone : events.countP SessionEvent.isClosed = 0 := by
        rw [List.countP_eq_zero]
        exact fun e' he' => by simp [(he e' he' hclosed).1]
      rw [List.countP_cons_of_pos hclosed]
      omega

end IsCoherent

/-- Whatever is done to a record from the beginning of its session on: when it has ended it stays
so, and no request is recorded any more nor is the session closed, both of which leave it as it is;
the session is closed once at most, and no request is handled behind that; and the counters say how
many events of each kind there have been, in words of 64 bits, which are the numbers themselves
while there are fewer events than words. -/
theorem after_begin_lawful (id : SessionId) (username : Option String)
    (capabilities : Capabilities) (now : Time.Instant) (steps : List RecordStep) :
    (((begin id username capabilities now).after steps).record.status = .terminated →
      ∀ more, let c := ((begin id username capabilities now).after steps).after more
        c.record.status = .terminated ∧
        (∀ operation failed, c.record.handled operation failed = .error .requestAfterEnd ∧
          c.take (.handled operation failed) = c) ∧
        ∀ reason, c.record.close reason = .error .alreadyClosed ∧ c.take (.close reason) = c) ∧
    let c := (begin id username capabilities now).after steps
    c.events.countP SessionEvent.isClosed ≤ 1 ∧
    (∀ before reason later, c.events = before ++ .closed reason :: later →
      ∀ e ∈ later, e.isHandled = false) ∧
    c.record.counters = SessionEvent.counts c.events ∧
    (c.events.length < UInt64.size →
      c.record.counters.requests.toNat = c.events.countP SessionEvent.isHandled ∧
      c.record.counters.badRequests.toNat = c.events.count .rejected ∧
      c.record.counters.errors.toNat = c.events.countP SessionEvent.isFailure ∧
      c.record.counters.subscriptions.toNat = c.events.count .subscribed) := by
  have hcoherent := (IsCoherent.begin id username capabilities now).after steps
  refine ⟨fun hended more => ?_, hcoherent.countP_isClosed_le, ?_, hcoherent.counted,
    fun hfits => ?_⟩
  · have hstays := after_of_terminated hended more
    exact ⟨hstays,
      fun operation failed => ⟨handled_of_terminated hstays operation failed,
        take_handled_of_terminated hstays operation failed⟩,
      fun reason => ⟨close_of_terminated hstays reason, take_close_of_terminated hstays reason⟩⟩
  · intro before reason later hevents e he
    exact (hcoherent.quiet_behind_close hevents e he).2
  · rw [hcoherent.counted]
    exact SessionEvent.toNat_counts hfits

/-- A session with a request that fails and a subscription, which is closed before a last message
comes. -/
def farewell : List RecordStep :=
  [.handled "get" true, .subscribed, .observe .terminating, .close "close-session", .rejected]

/-- Its record does not come to life again, neither by its snapshot nor by its session. -/
theorem farewell_lawful :
    ((begin default none [] default).after farewell).record.status = .terminated ∧
    (((begin default none [] default).after farewell).after
      [.restore, .observe .working]).record.status = .terminated ∧
    ((begin default none [] default).after farewell).events.countP SessionEvent.isClosed = 1 ∧
    ((begin default none [] default).after farewell).record.counters =
      { requests := 1, badRequests := 1, errors := 1, subscriptions := 1 } := by
  have hlawful := after_begin_lawful default none [] default farewell
  exact ⟨rfl, (hlawful.1 rfl _).1, rfl, hlawful.2.2.2.1⟩

end Chronicle
end Netconf
