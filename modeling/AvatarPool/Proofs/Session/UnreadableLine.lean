import AvatarPool.Proofs.Session.Interruption

/-! # A line that is no text ends a lines host

At the end of its input and at an interruption a lines host sees to it that every request which it
has accepted is answered.  A line that is no text ends it at once: it neither waits for its handlers
nor has the service stop, and their replies may never be written.

Nothing that has been promised before is broken by that: what such a host has written are proper
replies, each to a request of its own.  Only the balance at the end is missing, and the last theorem
shows that it really is: a request accepted in time gets no response at all. -/

namespace AvatarPool.Piped

open Session

variable {τ : List FeedMove} {input : List UInt8} {p : Piped} {a : Answer}

/-- **What a lines host has done when it returns.**  After any run over any input a lines host that
has returned has answered each accepted request at most once, and has written nothing else.  If it
has ended well then it has answered every one of them, and the service has ended.  Otherwise it has
come upon a line that is no text: requests that it has accepted may be left, some answers may not be
written, and it has not asked the service to stop. -/
theorem accepted_requests_at_return {config : PoolSettings} {engine : Session.Engine}
    {drive : GateDrive} (hp : (ofBytes config engine drive input).feedAll τ = some p)
    (ha : (0, a) ∈ p.session.done) :
    ∃ accepted rest settled left responses unwritten,
      Lines.allFrom [] input = accepted.map Text.utf8 ++ rest ∧
      p.session.handlers.map Handler.frame = requests accepted ∧
      (decoded accepted).Perm (settled ++ left) ∧ List.Forall₂ (Answered τ) settled responses ∧
      (p.session.frames ++ unwritten).Perm (responses.map Response.frame) ∧
      ((a = .stopped ∧ left = [] ∧ unwritten = [] ∧ p.session.service.hasEnded) ∨
        (a = .fault .invalidData ∧ (∃ bad more, rest = bad :: more ∧ Text.ofUtf8? bad = none) ∧
          .lines 0 ∉ p.session.service.askers)) := by
  have hobeys : ∀ m ∈ τ, m.Obeys (runLaw τ) := fun m hm => obeys_of_mem hm
  obtain ⟨accepted, why, hserves, -⟩ := (serves_ofBytes (runLaw τ) config engine drive input).feedAll
    (runLaw_allowsStop τ) hobeys hp
  -- What the host has accepted is accounted for; it is left to see how it has stopped reading.
  obtain ⟨settled, left, responses, unwritten, hsplit, hanswered, hframes, hlast, hreturned⟩ :=
    hserves.returned ha
  obtain ⟨gone, live, l, -, -, hreads⟩ := hserves
  -- It has ended well.
  rcases hreturned with ⟨rfl, hwhy, hended, rfl, rfl⟩ | ⟨rfl, rfl, hunasked⟩
  · obtain ⟨rest, hlines⟩ : ∃ rest, Lines.allFrom [] input = accepted.map Text.utf8 ++ rest := by
      cases hreads with
      | reading h | interrupted h => exact ⟨_, h⟩
      | endOfInput h => exact ⟨[], h.trans (List.append_nil _).symm⟩
      | unreadable => exact absurd rfl hwhy
    exact ⟨accepted, rest, settled, [], responses, [], hlines, hlast, hsplit, hanswered, hframes,
      .inl ⟨rfl, rfl, rfl, hended⟩⟩
  -- It has come upon a line that is no text.
  · cases hreads with
    | unreadable h hbad =>
        exact ⟨accepted, _, settled, left, responses, unwritten, h, hlast, hsplit, hanswered, hframes,
          .inr ⟨rfl, ⟨_, _, rfl, hbad⟩, hunasked⟩⟩

/-- The first request is answered, and the second one is in work, when the bad line comes. -/
def untilUnreadable : List FeedMove :=
  [.write (nameLine 1 "x" ++ nameLine 2 "y").length, .turn (.lines 0), .service .begin,
    .turn (.handler 0), .service .command, .service (.take 0),
    .service (.finish 0 (.ofJob (.name "x")) (.name "Robot x")),
    .service (.report ⟨0, .name "x", .ok (.name "Robot x")⟩), .turn (.handler 0),
    .turn (.writer 0), .turn (.handler 1), .service .command, .service (.take 0), .write 2,
    .turn (.lines 0)]

set_option maxRecDepth 100000 in
theorem accepted_requests_at_return_unreadable :
    ∃ p : Piped, (ofBytes { poolSize := 1 } .builtIn .opened
        (nameLine 1 "x" ++ nameLine 2 "y" ++ [255, 10])).feedAll untilUnreadable = some p ∧
      (0, .fault .invalidData) ∈ p.session.done ∧ .lines 0 ∉ p.session.service.askers ∧
      p.session.frames = [(Response.resolved (.counter 1) "Robot x").frame] ∧
      ∃ settled left responses unwritten,
        (threeRequests.take 2).Perm (settled ++ left) ∧
        List.Forall₂ (Answered untilUnreadable) settled responses ∧
        (p.session.frames ++ unwritten).Perm (responses.map Response.frame) := by
  have hplay : ((ofBytes { poolSize := 1 } .builtIn .opened
      (nameLine 1 "x" ++ nameLine 2 "y" ++ [255, 10])).feedAll untilUnreadable).any fun p =>
        p.session.done.map Prod.fst = [0] ∧ p.session.service.hasEnded = false ∧
          decoded (p.session.handlers.map Handler.frame) = threeRequests.take 2 ∧
            p.session.frames = [(Response.resolved (.counter 1) "Robot x").frame] := by
    decide +kernel
  obtain ⟨p, hp, hends⟩ := (Option.any_eq_true _ _).mp hplay
  obtain ⟨hdone, hserves, hrequests, hwritten⟩ := of_decide_eq_true hends
  obtain ⟨⟨_, a⟩, hmem, rfl⟩ := List.mem_map.mp (hdone ▸ List.mem_singleton_self 0)
  obtain ⟨accepted, _, settled, left, responses, unwritten, -, hlast, hsplit, hanswered, hframes,
    ⟨-, -, -, hended⟩ | ⟨rfl, -, hunasked⟩⟩ := accepted_requests_at_return hp hmem
  -- The service has not ended, so the host has not ended well.
  · rw [hserves] at hended
    cases hended
  · rw [hlast, decoded_requests] at hrequests
    rw [hrequests] at hsplit
    exact ⟨p, hp, hmem, hunasked, hwritten, settled, left, responses, unwritten, hsplit, hanswered,
      hframes⟩

/-- Whether a call has been answered with a line that is no text. -/
def isUnreadable (d : Nat × Answer) : Bool :=
  match d.2 with
  | .fault .invalidData => true
  | _ => false

set_option maxRecDepth 100000 in
/-- **A request is lost.**  A request has been accepted, and nobody has told the host to stop, when a
line comes that is no text: the host returns, while the request is not answered and the service goes
on. -/
theorem unreadable_line_loses_request :
    ∃ p : Piped, (ofBytes {} .builtIn .opened (nameLine 1 "x" ++ [255, 10])).feedAll
        [.write 1000, .turn (.lines 0)] = some p ∧
      (∃ d ∈ p.session.done, d.1 = 0 ∧ d.2 = .fault .invalidData) ∧
      (decoded (p.session.handlers.map Handler.frame)).length = 1 ∧ p.session.frames = [] ∧
      (∀ l ∈ p.session.linesHosts, l.writer.queue = []) ∧ ¬ p.session.service.hasEnded := by
  have hplay : ((ofBytes {} .builtIn .opened (nameLine 1 "x" ++ [255, 10])).feedAll
      [.write 1000, .turn (.lines 0)]).any fun p =>
        (p.session.done.any fun d => d.1 = 0 && isUnreadable d) &&
          decide ((decoded (p.session.handlers.map Handler.frame)).length = 1 ∧
            p.session.frames = [] ∧ (∀ l ∈ p.session.linesHosts, l.writer.queue = []) ∧
              p.session.service.hasEnded = false) := by
    decide +kernel
  obtain ⟨p, hp, hall⟩ := (Option.any_eq_true _ _).mp hplay
  obtain ⟨hreturned, hrest⟩ := Bool.and_eq_true_iff.mp hall
  obtain ⟨hlines, hframes, hqueue, hserves⟩ := of_decide_eq_true hrest
  refine ⟨p, hp, ?_, hlines, hframes, hqueue, by rw [hserves]; exact Bool.false_ne_true⟩
  -- Answers cannot be compared by deciding, so the fault is looked for among them.
  obtain ⟨⟨n, a⟩, hmem, hboth⟩ := List.any_eq_true.mp hreturned
  obtain ⟨hn, hfault⟩ := Bool.and_eq_true_iff.mp hboth
  refine ⟨(n, a), hmem, of_decide_eq_true hn, ?_⟩
  unfold isUnreadable at hfault
  split at hfault
  · assumption
  · cases hfault

end AvatarPool.Piped
