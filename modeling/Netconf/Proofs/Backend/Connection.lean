import Netconf.Backend.Connection
import Netconf.Proofs.Backend.Call
import Netconf.Proofs.Backend.Lines

/-! Requests and responses go in step on a connection. However many requests have been written, just
as many lines have been read, whatever they held; so a response that cannot be used does not put the
later requests out of step with their answers. -/
namespace Netconf

namespace Bytes

/-- The lines of a stream, each with its end. The last one may be without. -/
def lines : Bytes → List Bytes
  | [] => []
  | b :: bs =>
    if b = 0x0A then [b] :: lines bs
    else match lines bs with
      | [] => [[b]]
      | line :: rest => (b :: line) :: rest

/-- A line with its end. -/
def IsFullLine (line : Bytes) : Prop := ∃ text, (0x0A : UInt8) ∉ text ∧ line = text ++ [0x0A]

variable {line rest : Bytes}

theorem lines_of_not_mem (h : (0x0A : UInt8) ∉ line) (hne : line ≠ []) : lines line = [line] := by
  induction line with
  | nil => exact absurd rfl hne
  | cons b bs ih =>
    obtain ⟨hb, hbs⟩ : 0x0A ≠ b ∧ 0x0A ∉ bs := by simpa using h
    rw [lines, if_neg (Ne.symm hb)]
    by_cases hnil : bs = []
    · rw [hnil, lines]
    · rw [ih hbs hnil]

theorem IsFullLine.lines_append (h : IsFullLine line) (rest : Bytes) :
    lines (line ++ rest) = line :: lines rest := by
  obtain ⟨text, htext, rfl⟩ := h
  induction text with
  | nil => rfl
  | cons b bs ih =>
    obtain ⟨hb, hbs⟩ : 0x0A ≠ b ∧ 0x0A ∉ bs := by simpa using htext
    rw [List.cons_append, List.cons_append, lines, if_neg (Ne.symm hb), ih hbs]

theorem lines_flatten_append {taken : List Bytes} (h : ∀ l ∈ taken, IsFullLine l) (rest : Bytes) :
    lines (taken.flatten ++ rest) = taken ++ lines rest := by
  induction taken with
  | nil => rfl
  | cons l taken ih =>
    obtain ⟨hl, htaken⟩ := List.forall_mem_cons.mp h
    rw [List.flatten_cons, List.append_assoc, hl.lines_append, ih htaken, List.cons_append]

theorem IsFullLine.count (h : IsFullLine line) : line.count 0x0A = 1 := by
  obtain ⟨text, htext, rfl⟩ := h
  rw [List.count_append, List.count_eq_zero_of_not_mem htext]
  rfl

theorem count_flatten {taken : List Bytes} (h : ∀ l ∈ taken, IsFullLine l) :
    taken.flatten.count 0x0A = taken.length := by
  induction taken with
  | nil => rfl
  | cons l taken ih =>
    obtain ⟨hl, htaken⟩ := List.forall_mem_cons.mp h
    rw [List.flatten_cons, List.count_append, hl.count, ih htaken, List.length_cons, Nat.add_comm]

end Bytes

namespace Backend

open Bytes (lines IsFullLine)

/-! What the server sends. -/

namespace Answer

/-- The server's answer to the request at a position. -/
def nth (answers : List Answer) (k : Nat) : Answer := answers[k]?.getD .ok

/-- Whether the server has closed the connection after so many requests. -/
def closed (answers : List Answer) : Nat → Bool
  | 0 => false
  | k + 1 => closed answers k || (nth answers k).closes

/-- All that the server has sent after so many requests, a greeting first. -/
def stream (greeting : Bytes) (answers : List Answer) : Nat → Bytes
  | 0 => greeting
  | k + 1 =>
    if closed answers k then stream greeting answers k
    else stream greeting answers k ++ (nth answers k).bytes

/-- Nobody waits for the server: of so many requests it has answered each with a line, or has closed
the connection. -/
def KeepsUp (greeting : Bytes) (answers : List Answer) (n : Nat) : Prop :=
  ∀ k < n, closed answers (k + 1) = true ∨ k < (stream greeting answers (k + 1)).count 0x0A

variable {greeting : Bytes} {answers : List Answer} {k n : Nat}

/-- What has been sent stays, and nothing follows it on a closed connection. -/
theorem stream_of_le (h : k ≤ n) : ∃ more, stream greeting answers n =
    stream greeting answers k ++ more ∧
      (closed answers k = true → more = [] ∧ closed answers n = true) := by
  induction h with
  | refl => exact ⟨[], (List.append_nil _).symm, fun hclosed => ⟨rfl, hclosed⟩⟩
  | @step n h ih =>
    obtain ⟨more, hmore, hclosed⟩ := ih
    rw [stream, closed]
    split
    · next hn => exact ⟨more, hmore, fun hk => ⟨(hclosed hk).1, by rw [hn, Bool.true_or]⟩⟩
    · next hn =>
      rw [hmore, List.append_assoc]
      exact ⟨_, rfl, fun hk => absurd (hclosed hk).2 hn⟩

end Answer

open Answer (nth closed stream KeepsUp)

/-! The calls. -/

/-- What a call gets. -/
inductive Result where
  | listed (r : Except ServerError (List String))
  | done (r : Except ServerError Unit)
  | replied (r : Rpc.Reply)

namespace Call

/-- The request that a call writes. An operation without a body is not worth one. -/
def request? : Call → Option Request
  | capabilities => some .getCapabilities
  | inform info => some (.sessionInfo info)
  | forward session request =>
    request.content.map fun content => .operation session request.messageId content.render
  | close session => some (.closeSession session)
  | kill session target => some (.killSession session target)

/-- What a call makes of a response, or of the want of one. -/
def verdict (call : Call) (heard : Except ServerError Response) : Result :=
  match call with
  | capabilities => .listed (heard.bind Connection.listing)
  | inform _ => .done (heard.bind Connection.approval)
  | forward _ request =>
    .replied (if request.content.isSome then Connection.relayed heard
      else Connection.operationFailed "Operation has no body.")
  | close _ => .done (heard.bind Connection.approval)
  | kill _ _ => .replied (Connection.relayed heard)

/-- What a call gets from the management server. -/
def result (call : Call) (c : Connection) : Result :=
  match call with
  | capabilities => .listed (Server.capabilities c).1
  | inform info => .done (Server.inform info c).1
  | forward session request => .replied (Server.forward session request c).1
  | close session => .done (Server.close session c).1
  | kill session target => .replied (Server.kill session target c).1

/-- The connection when some calls have been made, one after the other. -/
def makeAll (calls : List Call) (c : Connection) : Connection :=
  calls.foldl (fun c call => call.make c) c

variable {call : Call} {c : Connection} {r : Request}

/-- A call writes its request and judges what it hears. -/
theorem of_request (h : call.request? = some r) :
    call.make c = (c.call r).2 ∧ call.result c = call.verdict (c.call r).1 := by
  cases call with
  | forward session request =>
    obtain ⟨content, hcontent, rfl⟩ := Option.map_eq_some_iff.mp h
    simp [make, result, verdict, Server.forward, hcontent]
  | capabilities =>
    obtain rfl := Option.some.inj h
    exact ⟨rfl, rfl⟩
  | inform info =>
    obtain rfl := Option.some.inj h
    exact ⟨rfl, rfl⟩
  | close session =>
    obtain rfl := Option.some.inj h
    exact ⟨rfl, rfl⟩
  | kill session target =>
    obtain rfl := Option.some.inj h
    exact ⟨rfl, rfl⟩

theorem of_no_request (h : call.request? = none) (heard : Except ServerError Response) :
    call.make c = c ∧ call.result c = call.verdict heard := by
  cases call with
  | forward session request =>
    have hcontent := Option.map_eq_none_iff.mp h
    simp [make, result, verdict, Server.forward, hcontent]
  | capabilities => cases h
  | inform info => cases h
  | close session => cases h
  | kill session target => cases h

end Call

/-! Reading. -/

/-- What a line says to one who waits for a response. -/
def understood : Option Bytes → Except ServerError Response
  | none => .error (.unreachable "management server closed the connection")
  | some line =>
    match Bytes.toString? line with
    | none => .error (.io (((Text.utf8Fault? line).map (·.message)).getD ""))
    | some text =>
      match Response.ofLine? text with
      | some response => .ok response
      | none => .error (.violation (.notResponse (Response.reason text)))

namespace Connection

variable {c : Connection} {r : Request}

/-- A line is taken with its end. -/
theorem takeLine_of_append {text rest : Bytes} (htext : 0x0A ∉ text)
    (hunread : c.unread = text ++ 0x0A :: rest) :
    c.takeLine = (text ++ [0x0A], { c with unread := rest }) := by
  have htake (b : UInt8) (hb : b ∈ text) : (b != 0x0A) = true :=
    bne_iff_ne.mpr fun heq => htext (heq ▸ hb)
  rw [takeLine, hunread, List.takeWhile_append_of_pos htake, List.dropWhile_append_of_pos htake]
  simp

theorem exists_of_mem (h : 0x0A ∈ c.unread) : ∃ line rest, IsFullLine line ∧
    c.unread = line ++ rest ∧ c.takeLine = (line, { c with unread := rest }) := by
  obtain ⟨text, rest, hunread, htext⟩ := List.eq_append_cons_of_mem h
  exact ⟨text ++ [0x0A], rest, ⟨text, htext, rfl⟩, by simp [hunread],
    takeLine_of_append htext hunread⟩

theorem takeLine_of_not_mem (h : 0x0A ∉ c.unread) :
    c.takeLine = (c.unread, { c with unread := [] }) := by
  have htake (b : UInt8) (hb : b ∈ c.unread) : (b != 0x0A) = true :=
    bne_iff_ne.mpr fun heq => h (heq ▸ hb)
  have hall : c.unread.takeWhile (· != 0x0A) = c.unread := List.takeWhile_eq_self_iff.mpr htake
  have hnone : c.unread.dropWhile (· != 0x0A) = [] := List.dropWhile_eq_nil_iff.mpr htake
  rw [takeLine, hall, hnone]
  simp

/-- The first line is read, if there is one. -/
theorem receive_fst (c : Connection) : c.receive.1 = understood (lines c.unread).head? := by
  by_cases hne : c.unread = []
  · rw [receive, hne]
    rfl
  · rw [receive, if_neg (by simpa using hne)]
    by_cases hmem : 0x0A ∈ c.unread
    · obtain ⟨line, rest, hline, hunread, htake⟩ := exists_of_mem hmem
      rw [hunread, hline.lines_append, htake]
      rfl
    · rw [takeLine_of_not_mem hmem, Bytes.lines_of_not_mem hmem hne]
      rfl

/-- Reading changes nothing but what is left to be read. -/
theorem receive_snd (c : Connection) : ∃ rest, c.receive.2 = { c with unread := rest } ∧
    (0x0A ∈ c.unread → ∃ line, IsFullLine line ∧ c.unread = line ++ rest) := by
  by_cases hne : c.unread = []
  · refine ⟨c.unread, ?_, fun hmem => by simp [hne] at hmem⟩
    rw [receive, if_pos (by simp [hne])]
  · rw [receive, if_neg (by simpa using hne)]
    by_cases hmem : 0x0A ∈ c.unread
    · obtain ⟨line, rest, hline, hunread, htake⟩ := exists_of_mem hmem
      rw [htake]
      exact ⟨rest, rfl, fun _ => ⟨line, hline, hunread⟩⟩
    · rw [takeLine_of_not_mem hmem]
      exact ⟨[], rfl, fun h => absurd h hmem⟩

/-! Going in step. -/

/-- A connection on which a request has been written for each line that has been read. -/
structure IsInStep (greeting : Bytes) (answers : List Answer) (c : Connection) : Prop where
  answers_eq : c.answers = answers.drop c.sent.length
  isOpen_eq : c.isOpen = !closed answers c.sent.length
  unread : c.isOpen = true → ∃ taken : List Bytes, taken.length = c.sent.length ∧
    (∀ line ∈ taken, IsFullLine line) ∧
    stream greeting answers c.sent.length = taken.flatten ++ c.unread

variable {greeting : Bytes} {answers : List Answer} {n : Nat}

/-- The connection before the first request. The server may have closed it already. -/
def fresh (isOpen : Bool) (greeting : Bytes) (answers : List Answer) : Connection where
  answers := answers
  unread := greeting
  isOpen := isOpen

theorem isInStep_fresh : IsInStep greeting answers (fresh true greeting answers) where
  answers_eq := rfl
  isOpen_eq := rfl
  unread _ := ⟨[], rfl, nofun, rfl⟩

theorem call_of_closed (h : c.isOpen = false) : c.call r = (.error (.io brokenPipe), c) := by
  rw [call, h]
  rfl

namespace IsInStep

theorem closed_eq_false (h : IsInStep greeting answers c) (hopen : c.isOpen = true) :
    closed answers c.sent.length = false := by simpa [hopen] using h.isOpen_eq

/-- What comes in with the answer to a request. -/
theorem send (h : IsInStep greeting answers c) (hopen : c.isOpen = true) (line : String) :
    c.send line = { answers := answers.drop (c.sent.length + 1)
                    unread := c.unread ++ (nth answers c.sent.length).bytes
                    isOpen := !closed answers (c.sent.length + 1)
                    sent := c.sent ++ [line] } := by
  have hhead : c.answers.head?.getD .ok = nth answers c.sent.length := by
    rw [h.answers_eq, List.head?_drop]
    rfl
  rw [Connection.send, hhead, closed, h.closed_eq_false hopen, Bool.false_or, h.answers_eq,
    List.tail_drop]

/-- A line has been read for each request but the one that has just been written. -/
theorem stream_succ (h : IsInStep greeting answers c) (hopen : c.isOpen = true) (line : String) :
    ∃ taken : List Bytes, taken.length = c.sent.length ∧ (∀ l ∈ taken, IsFullLine l) ∧
      stream greeting answers (c.sent.length + 1) = taken.flatten ++ (c.send line).unread := by
  obtain ⟨taken, htaken, hfull, hstream⟩ := h.unread hopen
  refine ⟨taken, htaken, hfull, ?_⟩
  rw [stream, if_neg (by simp [h.closed_eq_false hopen]), hstream, List.append_assoc,
    h.send hopen]

/-- The next line comes in, unless the connection is closed then. -/
theorem mem_unread (h : IsInStep greeting answers c) (keeps : KeepsUp greeting answers n)
    (hn : c.sent.length < n) (hopen : c.isOpen = true) (line : String)
    (hstill : closed answers (c.sent.length + 1) = false) : 0x0A ∈ (c.send line).unread := by
  obtain ⟨taken, htaken, hfull, hnext⟩ := h.stream_succ hopen line
  have hcount := (keeps _ hn).resolve_left (by simp [hstill])
  rw [hnext, List.count_append, Bytes.count_flatten hfull, htaken] at hcount
  refine List.count_pos_iff.mp ?_
  omega

/-- The first line to be read is the one at the position of the request. -/
theorem head?_unread (h : IsInStep greeting answers c) (keeps : KeepsUp greeting answers n)
    (hn : c.sent.length < n) (hopen : c.isOpen = true) (line : String) :
    (lines (c.send line).unread).head? = (lines (stream greeting answers n))[c.sent.length]? := by
  obtain ⟨taken, htaken, hfull, hnext⟩ := h.stream_succ hopen line
  obtain ⟨more, hmore, hlast⟩ : ∃ more, stream greeting answers n =
      stream greeting answers (c.sent.length + 1) ++ more ∧ _ := Answer.stream_of_le hn
  cases hstill : closed answers (c.sent.length + 1) with
  | true =>
    rw [hmore, (hlast hstill).1, List.append_nil, hnext, Bytes.lines_flatten_append hfull,
      ← htaken, List.getElem?_append_right (Nat.le_refl _), Nat.sub_self, List.head?_eq_getElem?]
  | false =>
    -- What follows the line does not reach into it.
    obtain ⟨first, rest, hfirst, hunread, -⟩ :=
      exists_of_mem (h.mem_unread keeps hn hopen line hstill)
    rw [hmore, hnext, hunread, List.append_assoc, List.append_assoc,
      Bytes.lines_flatten_append hfull, hfirst.lines_append, hfirst.lines_append, ← htaken,
      List.getElem?_append_right (Nat.le_refl _), Nat.sub_self]
    rfl

/-- A request is written as a line, and the line at its position is read. -/
theorem call (h : IsInStep greeting answers c) (keeps : KeepsUp greeting answers n)
    (hn : c.sent.length < n) (hopen : c.isOpen = true) (r : Request) :
    IsInStep greeting answers (c.call r).2 ∧ (c.call r).2.sent = c.sent ++ [r.line] ∧
      (c.call r).1 = understood (lines (stream greeting answers n))[c.sent.length]? := by
  obtain ⟨taken, htaken, hfull, hnext⟩ := h.stream_succ hopen r.line
  have hcall : c.call r = (c.send r.line).receive := if_pos hopen
  obtain ⟨rest, hrest, hline⟩ := receive_snd (c.send r.line)
  have hlength : (c.sent ++ [r.line]).length = c.sent.length + 1 := List.length_append
  rw [hcall, hrest, receive_fst, h.head?_unread keeps hn hopen]
  refine ⟨⟨?_, ?_, fun hopen' => ?_⟩, by rw [h.send hopen], rfl⟩
  · rw [h.send hopen, hlength]
  · rw [h.send hopen, hlength]
  · rw [h.send hopen] at hopen'
    have hstill : closed answers (c.sent.length + 1) = false := by simpa using hopen'
    obtain ⟨first, hfirst, hunread⟩ := hline (h.mem_unread keeps hn hopen r.line hstill)
    have hsent : (c.send r.line).sent.length = c.sent.length + 1 := by
      rw [h.send hopen, hlength]
    dsimp only
    rw [hsent, ← htaken]
    refine ⟨taken ++ [first], List.length_append, ?_, ?_⟩
    · exact List.forall_mem_append.mpr ⟨hfull, by simpa using hfirst⟩
    · rw [htaken, hnext, hunread, List.flatten_append, List.flatten_singleton, List.append_assoc]

/-- A call without a request leaves the connection as it is, and so does one on a connection that
the server has closed. -/
theorem make (h : IsInStep greeting answers c) (keeps : KeepsUp greeting answers n) (call : Call)
    (hn : call.request?.isSome → c.sent.length < n) :
    IsInStep greeting answers (call.make c) ∧
      (call.make c).sent.length ≤ c.sent.length + call.request?.toList.length := by
  cases hr : call.request? with
  | none =>
    rw [(Call.of_no_request hr (.error (.io brokenPipe))).1]
    exact ⟨h, Nat.le_refl _⟩
  | some r =>
    rw [(Call.of_request hr).1]
    cases hopen : c.isOpen with
    | false =>
      rw [call_of_closed hopen]
      exact ⟨h, Nat.le_succ _⟩
    | true =>
      obtain ⟨hstep, hsent, -⟩ := h.call keeps (hn (by rw [hr]; rfl)) hopen r
      refine ⟨hstep, ?_⟩
      rw [hsent, List.length_append]
      exact Nat.le_refl _

end IsInStep

/-- The requests of some calls. -/
def requests (calls : List Call) : List Request := calls.flatMap (·.request?.toList)

theorem IsInStep.makeAll (h : IsInStep greeting answers c) (keeps : KeepsUp greeting answers n)
    {calls : List Call} (hn : c.sent.length + (requests calls).length ≤ n) :
    IsInStep greeting answers (Call.makeAll calls c) ∧
      (Call.makeAll calls c).sent.length ≤ c.sent.length + (requests calls).length := by
  induction calls generalizing c with
  | nil => exact ⟨h, Nat.le_refl _⟩
  | cons call calls ih =>
    rw [requests, List.flatMap_cons, List.length_append] at hn ⊢
    have hcall : call.request?.isSome → c.sent.length < n := by
      intro hsome
      obtain ⟨r, hr⟩ := Option.isSome_iff_exists.mp hsome
      rw [hr, Option.toList_some, List.length_singleton] at hn
      omega
    obtain ⟨hstep, hsent⟩ := h.make keeps call hcall
    obtain ⟨hrest, hsent'⟩ := ih hstep (by rw [requests]; omega)
    refine ⟨hrest, ?_⟩
    rw [requests] at hsent'
    exact Nat.le_trans hsent' (by omega)

/-- A reply is the server's data, or says yes, or holds an error. -/
theorem relayed_cases (heard : Except ServerError Response) :
    relayed heard = .ok ∨ (∃ content, relayed heard = .data content ∧ heard = .ok (.data content)) ∨
      ∃ e es, relayed heard = .errors (e :: es) := by
  rw [relayed.eq_def]
  split
  · exact .inl rfl
  · next content => exact .inr (.inl ⟨content, rfl, rfl⟩)
  · next e es => exact .inr (.inr ⟨e, es, rfl⟩)
  · exact .inr (.inr ⟨_, [], rfl⟩)
  · exact .inr (.inr ⟨_, [], rfl⟩)

end Connection

namespace Call

open Connection (IsInStep fresh requests relayed_cases)

variable {call : Call} {heard : Except ServerError Response} {reply : Rpc.Reply} {r : Request}

theorem replied_of_verdict (h : call.verdict heard = .replied reply) :
    reply = .ok ∨ (∃ content, reply = .data content ∧ heard = .ok (.data content)) ∨
      ∃ e es, reply = .errors (e :: es) := by
  cases call with
  | capabilities => cases h
  | inform info => cases h
  | close session => cases h
  | kill session target =>
    obtain rfl := Result.replied.inj h
    exact relayed_cases heard
  | forward session request =>
    obtain rfl := Result.replied.inj h
    split
    · exact relayed_cases heard
    · exact .inr (.inr ⟨_, [], rfl⟩)

/-- The server's own errors are handed on. -/
theorem errors_of_verdict (hr : call.request? = some r) {e : Rpc.Error} {es : List Rpc.Error}
    (h : call.verdict (.ok (.errors (e :: es))) = .replied reply) : reply = .errors (e :: es) := by
  cases call with
  | capabilities => cases h
  | inform info => cases h
  | close session => cases h
  | kill session target =>
    obtain rfl := Result.replied.inj h
    rfl
  | forward session request =>
    obtain ⟨content, hcontent, -⟩ := Option.map_eq_some_iff.mp hr
    obtain rfl := Result.replied.inj h
    rw [hcontent]
    rfl

/-- A call that has been made on a connection gets what the server's line at the position of its
request says. -/
structure IsAnswered (call : Call) (lines : List Bytes) (c c' : Connection) (result : Result) :
    Prop where
  /-- One line is written, and read back as the request. -/
  written : ∀ r, call.request? = some r → c.isOpen = true → c'.sent = c.sent ++ [r.line] ∧
    Json.IsLineOf (fun s => (Json.parse? s).bind Request.ofValue?) r r.line ∧
      result = call.verdict (understood lines[c.sent.length]?)
  /-- Without anything written nothing is read. -/
  unwritten : call.request? = none ∨ c.isOpen = false →
    c' = c ∧ result = call.verdict (.error (.io Connection.brokenPipe))
  replied : ∀ reply, result = .replied reply → reply = .ok ∨
    (∃ content, reply = .data content ∧
      understood lines[c.sent.length]? = .ok (.data content)) ∨
    ∃ e es, reply = .errors (e :: es)
  errors : ∀ r reply e es, call.request? = some r → c.isOpen = true → result = .replied reply →
    understood lines[c.sent.length]? = .ok (.errors (e :: es)) → reply = .errors (e :: es)

theorem isAnswered_unwritten {c : Connection} {lines : List Bytes}
    (hmade : call.make c = c ∧
      call.result c = call.verdict (.error (.io Connection.brokenPipe)))
    (h : call.request? = none ∨ c.isOpen = false) :
    call.IsAnswered lines c (call.make c) (call.result c) := by
  rw [hmade.1, hmade.2]
  refine ⟨fun r hr hopen => ?_, fun _ => ⟨rfl, rfl⟩, fun reply hreply => ?_,
    fun r reply e es hr hopen => ?_⟩
  · simp [hr, hopen] at h
  · obtain hok | ⟨content, -, hdata⟩ | herrors := replied_of_verdict hreply
    · exact .inl hok
    · cases hdata
    · exact .inr (.inr herrors)
  · simp [hr, hopen] at h

theorem isAnswered_of_closed {c : Connection} (hopen : c.isOpen = false) (call : Call)
    (lines : List Bytes) : call.IsAnswered lines c (call.make c) (call.result c) := by
  cases hr : call.request? with
  | none => exact isAnswered_unwritten (of_no_request hr _) (.inl hr)
  | some r =>
    obtain ⟨hmake, hjudged⟩ := of_request (c := c) hr
    rw [Connection.call_of_closed hopen] at hmake hjudged
    exact isAnswered_unwritten ⟨hmake, hjudged⟩ (.inr hopen)

theorem makeAll_of_closed {c : Connection} (hopen : c.isOpen = false) (calls : List Call) :
    makeAll calls c = c := by
  induction calls with
  | nil => rfl
  | cons call calls ih =>
    have hmake := ((isAnswered_of_closed hopen call []).unwritten (.inr hopen)).1
    rw [makeAll, List.foldl_cons, hmake]
    exact ih

theorem isAnswered_of_isInStep {c : Connection} {greeting : Bytes} {answers : List Answer} {n : Nat}
    (h : IsInStep greeting answers c) (keeps : KeepsUp greeting answers n) (call : Call)
    (hn : call.request?.isSome → c.sent.length < n) :
    call.IsAnswered (lines (stream greeting answers n)) c (call.make c) (call.result c) := by
  cases hopen : c.isOpen with
  | false => exact isAnswered_of_closed hopen call _
  | true =>
    cases hr : call.request? with
    | none => exact isAnswered_unwritten (of_no_request hr _) (.inl hr)
    | some r =>
      obtain ⟨hmake, hjudged⟩ := of_request (c := c) hr
      obtain ⟨-, hwritten, hresult⟩ := h.call keeps (hn (by rw [hr]; rfl)) hopen r
      rw [hmake, hjudged, hresult]
      refine ⟨fun r' hr' _ => ?_, fun h => ?_, fun reply => replied_of_verdict,
        fun r' reply e es hr' _ hreply hheard => ?_⟩
      · obtain rfl := Option.some.inj (hr.symm.trans hr')
        exact ⟨hwritten, r.isOrdinary_toValue.isLineOf r.ofValue?_toValue, rfl⟩
      · simp [hr, hopen] at h
      · rw [hheard] at hreply
        exact errors_of_verdict hr hreply

/-- Whatever the server's lines hold, each request is answered by the one at its own position. -/
theorem answered_in_step (isOpen : Bool) (greeting : Bytes) (answers : List Answer)
    {calls before behind : List Call} {call : Call}
    (keeps : isOpen = true → KeepsUp greeting answers (requests calls).length)
    (made : calls = before ++ call :: behind) :
    call.IsAnswered (lines (stream greeting answers (requests calls).length))
      (makeAll before (fresh isOpen greeting answers))
      (call.make (makeAll before (fresh isOpen greeting answers)))
      (call.result (makeAll before (fresh isOpen greeting answers))) := by
  cases isOpen with
  | false =>
    rw [makeAll_of_closed rfl]
    exact isAnswered_of_closed rfl call _
  | true =>
    have hlength : (requests calls).length = (requests before).length +
        (call.request?.toList.length + (requests behind).length) := by
      simp [made, requests]
    have hfresh : IsInStep greeting answers (fresh true greeting answers) :=
      Connection.isInStep_fresh
    have hroom : (fresh true greeting answers).sent.length + (requests before).length ≤
        (requests calls).length := by
      simp only [fresh, List.length_nil]
      omega
    obtain ⟨hstep, hsent⟩ := hfresh.makeAll (keeps rfl) hroom
    refine isAnswered_of_isInStep hstep (keeps rfl) call fun hsome => ?_
    obtain ⟨r, hr⟩ := Option.isSome_iff_exists.mp hsome
    rw [hr, Option.toList_some, List.length_singleton] at hlength
    have hnone : (fresh true greeting answers).sent.length = 0 := rfl
    omega

/-- A server that answers with a line that is no text, and then with approval. -/
def stammering : List Answer := [{ bytes := [0xFF, 0x0A] }, .ok]

/-- The last call of a session. -/
def farewell : Call := close default

/-- It is approved of, although the call before it got nothing that could be used. -/
theorem farewell_answered :
    farewell.result (makeAll [capabilities] (fresh true [] stammering)) = .done (.ok ()) := by
  have keeps : KeepsUp [] stammering (requests [capabilities, farewell]).length := by
    rw [KeepsUp]
    decide +kernel
  have made : [capabilities, farewell] = [capabilities] ++ farewell :: [] := rfl
  obtain ⟨-, -, hresult⟩ :=
    (answered_in_step true [] stammering (fun _ => keeps) made).written _ rfl (by decide +kernel)
  have hsent : (makeAll [capabilities] (fresh true [] stammering)).sent.length = 1 := by
    decide +kernel
  have hheard : understood (lines (stream [] stammering
    (requests [capabilities, farewell]).length))[1]? = .ok .ok := by decide +kernel
  rw [hresult, hsent, hheard]
  rfl

end Call

end Backend
end Netconf
