import AvatarPool.Proofs.Session.Feeding
import AvatarPool.Proofs.Wire.Pictures

/-! # A lines host that is interrupted answers what it has accepted

An interrupted lines host has the service stop before its requests are answered.  Some of them may
not have been sent to the service by then, others may be queued, in work, or in the hands of an
invocation that never ends.  All the same each of them is answered once, either with what the work in
this run has led to or with the refusal of a service that stops.

What an invocation leads to is only known once it has ended, so nothing can be said of it
beforehand; `LedTo` therefore speaks of the moves that have taken place in the run.  They make up a
law that the run obeys by its nature (`runLaw`), and under any law the accounts of a lines host
hold.  What remains is to read the accounts as responses: one for each accepted line that is a
request. -/

namespace AvatarPool

/-! ## What a run has led to -/

/-- **What work may have led to in a run** under a fingerprint: what an invocation for it has yielded,
or why the engine has not started. -/
inductive LedTo (τ : List FeedMove) (k : Fingerprint) : Outcome → Prop
  /-- A picture has been rendered. -/
  | picture {w : Nat} {task : Task} {png : List UInt8}
      (h : .service (.finish w task (.image png)) ∈ τ) (hk : task.fingerprint = k) :
      LedTo τ k (.ok (.image (.ofPng png)))
  /-- A name has been derived. -/
  | name {w : Nat} {task : Task} {text : String}
      (h : .service (.finish w task (.name text)) ∈ τ) (hk : task.fingerprint = k) :
      LedTo τ k (.ok (.name text))
  /-- The engine has refused. -/
  | refused {w : Nat} {task : Task} {message : String}
      (h : .service (.finish w task (.failed message)) ∈ τ) (hk : task.fingerprint = k) :
      LedTo τ k (.error (.engine message))
  /-- The engine has broken off. -/
  | brokeOff {w : Nat} {task : Task} (h : .service (.finish w task .panicked) ∈ τ)
      (hk : task.fingerprint = k) : LedTo τ k (.error (.enginePanicked k.label))
  /-- The engine has not started, and everybody is told why. -/
  | unready {why : Failure} (h : .service (.setGate (.failed why)) ∈ τ) : LedTo τ k (.error why)

/-- What a worker reports of an invocation that has ended in a run is what work has led to. -/
theorem ledTo_of_finish {τ : List FeedMove} {w : Nat} {task : Task} {ending : Ending}
    (h : .service (.finish w task ending) ∈ τ) :
    LedTo τ task.fingerprint (ending.outcome task.fingerprint) := by
  cases ending with
  | image png => exact .picture h rfl
  | name text => exact .name h rfl
  | failed message => exact .refused h rfl
  | panicked => exact .brokeOff h rfl

/-- The law of a run: callers are told what work has led to, or of a stop. -/
def runLaw (τ : List FeedMove) : Law where
  made k o := LedTo τ k o
  told k o := LedTo τ k o ∨ o = .error .shuttingDown
  told_of_made := .inl

theorem runLaw_allowsStop (τ : List FeedMove) : (runLaw τ).AllowsStop := fun _ => .inr rfl

/-- A run obeys its own law. -/
theorem obeys_of_mem {τ : List FeedMove} {m : FeedMove} (hm : m ∈ τ) : m.Obeys (runLaw τ) := by
  -- Only two moves are bound by the law: the gate fails, or an invocation ends.
  cases m with
  | service m =>
      cases m with
      | setGate state =>
          intro why hwhy k
          subst hwhy
          exact .unready hm
      | finish w task ending => exact ledTo_of_finish hm
      | _ => trivial
  | _ => trivial

/-- **What answers a request** after a run, under its id: a request that names no job gets the reason;
and any other one gets what work for its job has led to, which is the standard text of the bytes of a
picture, a name, or in what words the work has failed, or else the refusal of a service that stops. -/
inductive Answered (τ : List FeedMove) (r : Request) : Response → Prop
  | invalid {why : Failure} (hjob : r.job = .error why) :
      Answered τ r (.rejected r.id why.message)
  | picture {job : Job} {png : List UInt8} (hjob : r.job = .ok job)
      (ho : LedTo τ job.fingerprint (.ok (.image (.ofPng png)))) :
      Answered τ r (.resolved r.id (Base64.standard png))
  | name {job : Job} {text : String} (hjob : r.job = .ok job)
      (ho : LedTo τ job.fingerprint (.ok (.name text))) : Answered τ r (.resolved r.id text)
  | failed {job : Job} {why : Failure} (hjob : r.job = .ok job)
      (ho : LedTo τ job.fingerprint (.error why)) : Answered τ r (.rejected r.id why.message)
  | stopped {job : Job} (hjob : r.job = .ok job) :
      Answered τ r (.rejected r.id Failure.shuttingDown.message)

/-- The response that carries what work has led to answers the request. -/
theorem Answered.of_ledTo {τ : List FeedMove} {r : Request} {job : Job} {o : Outcome}
    (hjob : r.job = .ok job) (ho : LedTo τ job.fingerprint o) :
    Answered τ r (BridgeHost.respond r.id o) := by
  cases o with
  | error why => exact .failed hjob ho
  | ok artifact =>
      have hled := ho
      cases ho with
      | @picture _ _ png =>
          -- The response carries the standard text of the bytes of the picture.
          have hpayload : (Artifact.image (.ofPng png)).payload = Base64.standard png :=
            (Image.base64_ofPng png).trans (Base64.encode_eq_standard png)
          rw [BridgeHost.respond, hpayload]
          exact .picture hjob hled
      | name => exact .name hjob hled

/-- The requests among lines. -/
def decoded (lines : List String) : List Request :=
  lines.filterMap fun line => (Request.ofFrame line).toOption

/-- A line that is a request has an answer, and any other one has none. -/
theorem answered_of_proper {τ : List FeedMove} {line : String} {a : Option Response}
    (h : Session.Proper (runLaw τ) line a) :
    ((Request.ofFrame line).toOption = none ∧ a = none) ∨
      ∃ r response, (Request.ofFrame line).toOption = some r ∧ a = some response ∧
        Answered τ r response := by
  -- A line that is no request is ignored; a request without a job is refused at once; any other one
  -- is worked on.
  cases hline : Request.ofFrame line with
  | error why =>
      have hignored : BridgeHost.readFrame line = .ignore := by rw [BridgeHost.readFrame, hline]
      cases h with
      | ignored => exact .inl ⟨rfl, rfl⟩
      | immediate hread | worked hread => cases hignored.symm.trans hread
  | ok r =>
      have hreads : BridgeHost.readFrame line = BridgeHost.readRequest r := by
        rw [BridgeHost.readFrame, hline]
      right
      cases hjob : r.job with
      | error why =>
          have hreply : BridgeHost.readFrame line = .reply (.rejected r.id why.message) := by
            rw [hreads, BridgeHost.readRequest, hjob]
          cases h with
          | immediate hread =>
              cases hreply.symm.trans hread
              exact ⟨r, _, rfl, rfl, .invalid hjob⟩
          | ignored hread | worked hread => cases hreply.symm.trans hread
      | ok job =>
          have hwork : BridgeHost.readFrame line = .work r.id job := by
            rw [hreads, BridgeHost.readRequest, hjob]
          cases h with
          | worked hread ho =>
              cases hwork.symm.trans hread
              rcases ho with hled | rfl
              · exact ⟨r, _, rfl, rfl, .of_ledTo hjob hled⟩
              · exact ⟨r, _, rfl, rfl, .stopped hjob⟩
          | ignored hread | immediate hread => cases hwork.symm.trans hread

/-- The proper replies to lines, as far as there are any, are answers to the requests among the
lines. -/
theorem forall₂_answered {τ : List FeedMove} {lines : List String} {answers : List (Option Response)}
    (h : List.Forall₂ (Session.Proper (runLaw τ)) lines answers) :
    List.Forall₂ (Answered τ) (decoded lines) (answers.filterMap id) := by
  induction h with
  | nil => exact .nil
  | @cons line a lines answers hproper _ ih =>
      -- Line by line: no request and no reply, or a request and its answer.
      rw [decoded, List.filterMap_cons, List.filterMap_cons]
      rcases answered_of_proper hproper with ⟨hnone, rfl⟩ | ⟨r, response, hr, rfl, hanswered⟩
      · rw [hnone]
        exact ih
      · rw [hr]
        exact .cons hanswered ih

/-- A blank line is no request. -/
theorem decoded_requests (lines : List String) : decoded (Piped.requests lines) = decoded lines := by
  unfold decoded Piped.requests
  rw [List.filterMap_filter]
  refine List.filterMap_congr fun line _ => ?_
  split
  · rfl
  · rename_i hblank
    have hempty : Text.isBlank line := by simpa using hblank
    obtain ⟨why, hwhy⟩ := Request.ofFrame_of_isBlank hempty
    rw [hwhy]
    rfl

namespace Piped

open Session

variable {τ τ₁ τ₂ : List FeedMove} {input unread : List UInt8} {accepted : List String}
  {why : Option Halt} {p q : Piped} {s : Session} {a : Answer}

/-- **A lines host that has returned** has ended well and answered every request that it has
accepted, or it has come upon a line that is no text, and has left some of them open. -/
theorem Serves.returned (h : Serves (runLaw τ) input accepted why unread s) (ha : (0, a) ∈ s.done) :
    ∃ settled left responses unwritten,
      (decoded accepted).Perm (settled ++ left) ∧ List.Forall₂ (Answered τ) settled responses ∧
      (s.frames ++ unwritten).Perm (responses.map Response.frame) ∧
      s.handlers.map Handler.frame = requests accepted ∧
      ((a = .stopped ∧ why ≠ some .unreadable ∧ s.service.hasEnded ∧ left = [] ∧ unwritten = []) ∨
        (a = .fault .invalidData ∧ why = some .unreadable ∧ Unasked s)) := by
  obtain ⟨gone, live, l, host, hcourse, -⟩ := h
  -- The accounts are about frames, and blank lines are not among them.
  obtain ⟨settled, left, hsplit, hproper, hleft⟩ := host.accounts
  have hdecoded := hsplit.filterMap fun line => (Request.ofFrame line).toOption
  rw [List.filterMap_append] at hdecoded
  have hperm : (decoded accepted).Perm (decoded settled ++ decoded left) := by
    rw [← decoded_requests]
    exact hdecoded
  have hreplies : (s.frames ++ l.writer.queue).Perm
      (((gone.map Prod.snd).filterMap id).map Response.frame) := by
    rw [List.filterMap_map]
    exact host.replies
  refine ⟨decoded settled, decoded left, _, l.writer.queue, hperm, forall₂_answered hproper,
    hreplies, host.map_frame, ?_⟩
  -- The host has returned, so it is at one of the two last stages.
  have hnone : s.done ≠ [] := List.ne_nil_of_mem ha
  cases hcourse with
  | reads _ _ _ hdone | answers _ _ hdone | stops _ _ hdone | breaksOff _ hdone
  | answersLast _ _ hdone | closes _ _ _ _ hdone => exact absurd hdone hnone
  | ends hwhy _ hended hfin hdone =>
      -- It has ended: its writer has finished, which it does only when nobody is at work.
      obtain ⟨hnil, hqueue⟩ := host.closed hfin
      have hdecodes : decoded left = [] := by rw [hleft hnil]; rfl
      exact .inl ⟨(Prod.mk.inj (hdone _ ha)).2, fun heq => hwhy (Option.some.inj heq), hended,
        hdecodes, hqueue⟩
  | fails _ hunasked hdone => exact .inr ⟨(Prod.mk.inj (hdone _ ha)).2, rfl, hunasked⟩

/-- A host that looks at its input has not stopped reading. -/
theorem Serves.eq_none_of_isReading {L : Law} (h : Serves L input accepted why unread s)
    {l : LinesHost} (hl : l ∈ s.linesHosts) (hreading : l.isReading) : why = none := by
  obtain ⟨gone, live, l', host, hcourse, -⟩ := h
  -- There is one lines host.
  obtain ⟨l₀, hl₀, rfl⟩ := host.exists_host
  rw [hl₀, List.mem_singleton] at hl
  subst hl
  have hplain : l.stage = l.plain.stage := rfl
  unfold LinesHost.isReading at hreading
  cases hcourse with
  | reads => rfl
  | answers hstage | stops hstage | breaksOff hstage | answersLast hstage | closes _ hstage
  | ends _ hstage | fails hstage => simp [hplain, hstage] at hreading

/-- A response is one line of the output. -/
theorem notMem_of_perm {frames : List String} {responses : List Response}
    (h : frames.Perm (responses.map Response.frame)) : ∀ frame ∈ frames, '\n' ∉ frame.toList := by
  intro frame hframe hfeed
  obtain ⟨response, -, rfl⟩ := List.mem_map.mp (h.mem_iff.mp hframe)
  exact absurd (response.isShown_frame _ hfeed) (by decide)

/-- **An interrupted lines host answers every accepted request once.**  When a lines host that reads
has been told to stop, it reads no further: the requests of the lines that it has accepted by its
next turn are all that it ever accepts.  Once it has returned, after any run, it has ended well, and
so has the service, and what it has written is one response for each of these requests, under its id:
what work for its job has led to in this run, or the refusal of a service that stops.  No other frame
has been written. -/
theorem interrupted_requests_answered_once {config : PoolSettings} {engine : Session.Engine}
    {drive : GateDrive} (hq : (ofBytes config engine drive input).feedAll τ₁ = some q)
    (hcancelled : ∃ l ∈ q.session.linesHosts, l.isReading ∧ l.cancelled)
    (hp : q.feedAll (.turn (.lines 0) :: τ₂) = some p) (ha : (0, a) ∈ p.session.done) :
    a = .stopped ∧ p.session.service.hasEnded ∧
      ∃ accepted rest responses, Lines.allFrom [] input = accepted.map Text.utf8 ++ rest ∧
        q.session.handlers.map Handler.frame = requests accepted ∧
        p.session.handlers.map Handler.frame = requests accepted ∧
        List.Forall₂ (Answered (τ₁ ++ .turn (.lines 0) :: τ₂)) (decoded accepted) responses ∧
        p.session.frames.Perm (responses.map Response.frame) ∧
        ∀ frame ∈ p.session.frames, '\n' ∉ frame.toList := by
  generalize hτ : τ₁ ++ .turn (.lines 0) :: τ₂ = τ
  have hstop := runLaw_allowsStop τ
  -- Up to the interruption lines are accepted.
  have hbefore : ∀ m ∈ τ₁, m.Obeys (runLaw τ) := fun m hm =>
    obeys_of_mem (hτ ▸ List.mem_append_left _ hm)
  have hafter : ∀ m ∈ τ₂, m.Obeys (runLaw τ) := fun m hm =>
    obeys_of_mem (hτ ▸ List.mem_append_right _ (List.mem_cons_of_mem _ hm))
  obtain ⟨accepted, why, hserves, -⟩ :=
    (serves_ofBytes (runLaw τ) config engine drive input).feedAll hstop hbefore hq
  obtain ⟨l, hl, hreading, hcancelled⟩ := hcancelled
  have hfirst : q.session.handlers.map Handler.frame = requests accepted := by
    obtain ⟨gone, live, l', host, -⟩ := hserves
    exact host.map_frame
  obtain rfl := hserves.eq_none_of_isReading hl hreading
  -- The interruption is noticed, and nothing is accepted from then on.
  obtain ⟨q', hturn, hrest⟩ := Option.bind_eq_some_iff.mp hp
  obtain ⟨-, rfl⟩ := Option.ite_some_none_eq_some.mp hturn
  have hbroken := (hserves.erase (.lines 0)).runLines_of_cancelled hstop ⟨l, hl, hcancelled⟩
  obtain ⟨accepted', why', hserves', hkept⟩ := hbroken.feedAll hstop hafter hrest
  obtain ⟨rfl, rfl⟩ := hkept nofun
  -- Having ended well, the host has left nothing open.
  obtain ⟨settled, left, responses, unwritten, hsplit, hanswered, hframes, hlast, hreturned⟩ :=
    hserves'.returned ha
  rcases hreturned with ⟨rfl, -, hended, rfl, rfl⟩ | ⟨-, hno, -⟩
  · obtain ⟨rest, hlines⟩ : ∃ rest, Lines.allFrom [] input = accepted'.map Text.utf8 ++ rest := by
      obtain ⟨_, _, _, -, -, hreads⟩ := hserves'
      cases hreads with
      | interrupted h => exact ⟨_, h⟩
    rw [List.append_nil] at hsplit hframes
    -- The requests that are settled are the accepted ones, in some order; put them back into that
    -- of the lines.
    obtain ⟨responses', hanswered', hperm⟩ := List.perm_comp_forall₂ hsplit hanswered
    have hwritten := hframes.trans (hperm.map Response.frame).symm
    exact ⟨rfl, hended, accepted', rest, responses', hlines, hfirst, hlast, hanswered', hwritten,
      notMem_of_perm hwritten⟩
  · cases hno

/-- The request for a name, as a line. -/
def nameLine (n : UInt64) (seed : String) : List UInt8 :=
  Text.utf8 ((Request.ofJob (.counter n) (.name seed)).frame ++ "\n")

/-- Three requests that come before the interruption. -/
def brokenOff : List UInt8 := nameLine 1 "x" ++ nameLine 2 "y" ++ nameLine 3 "z"

/-- What these lines ask for. -/
def threeRequests : List Request :=
  [.ofJob (.counter 1) (.name "x"), .ofJob (.counter 2) (.name "y"), .ofJob (.counter 3) (.name "z")]

/-- Two requests are in work and one is queued when the host is told to stop. -/
def untilCancelled : List FeedMove :=
  [.write brokenOff.length, .turn (.lines 0), .service .begin, .turn (.handler 0),
    .turn (.handler 1), .turn (.handler 2), .service .command, .service .command,
    .service .command, .service (.take 0), .service (.take 1), .cancel]

/-- One invocation ends in time, and the other one never. -/
def onceCancelled : List FeedMove :=
  [.service .command, .turn (.handler 2), .service (.finish 0 (.ofJob (.name "x")) (.name "Robot x")),
    .service (.report ⟨0, .name "x", .ok (.name "Robot x")⟩), .turn (.handler 0),
    .service (.pass 3000), .service .leave, .turn (.handler 1), .service .dismiss,
    .service .dismiss, .service .dismiss, .service (.pass 3000), .service .farewell,
    .turn (.lines 0), .turn (.writer 0), .turn (.lines 0)]

/-- What is written in the end: the request that was queued is refused at once, the one whose
invocation has ended has its name, and the stuck one is refused when the service leaves. -/
def threeResponses : List Response :=
  [.rejected (.counter 3) "Service is shutting down", .resolved (.counter 1) "Robot x",
    .rejected (.counter 2) "Service is shutting down"]

set_option maxRecDepth 100000 in
theorem interrupted_requests_answered_once_late :
    ∃ q p : Piped, (ofBytes { poolSize := 2 } .builtIn .opened
        (brokenOff ++ nameLine 4 "unread")).feedAll untilCancelled = some q ∧
      q.feedAll (.turn (.lines 0) :: onceCancelled) = some p ∧ (0, .stopped) ∈ p.session.done ∧
      p.session.service.hasEnded ∧ p.session.frames = threeResponses.map Response.frame ∧
      ∃ responses, List.Forall₂ (Answered (untilCancelled ++ .turn (.lines 0) :: onceCancelled))
          threeRequests responses ∧ responses.Perm threeResponses := by
  have hplay : ((ofBytes { poolSize := 2 } .builtIn .opened
      (brokenOff ++ nameLine 4 "unread")).feedAll untilCancelled).any fun q =>
        (q.session.linesHosts.any fun l => l.isReading && l.cancelled) &&
          (q.feedAll (.turn (.lines 0) :: onceCancelled)).any fun p =>
            -- The rest is read off the session in which the run ends.
            p.session.done.map Prod.fst = [0] ∧
              decoded (p.session.handlers.map Handler.frame) = threeRequests ∧
                p.session.frames = threeResponses.map Response.frame := by
    decide +kernel
  obtain ⟨q, hq, hall⟩ := (Option.any_eq_true _ _).mp hplay
  obtain ⟨hcancelled, hrest⟩ := Bool.and_eq_true_iff.mp hall
  obtain ⟨l, hl, hboth⟩ := List.any_eq_true.mp hcancelled
  obtain ⟨p, hp, hends⟩ := (Option.any_eq_true _ _).mp hrest
  obtain ⟨hdone, hrequests, hwritten⟩ := of_decide_eq_true hends
  obtain ⟨⟨_, a⟩, hmem, rfl⟩ := List.mem_map.mp (hdone ▸ List.mem_singleton_self 0)
  obtain ⟨rfl, hended, accepted, rest, responses, -, -, hlast, hanswered, hframes, -⟩ :=
    interrupted_requests_answered_once hq ⟨l, hl, Bool.and_eq_true_iff.mp hboth⟩ hp hmem
  rw [hlast, decoded_requests] at hrequests
  rw [hrequests] at hanswered
  -- A response can be read off its frame, so those written are those that answer.
  have hsame : (responses.map Response.frame).Perm (threeResponses.map Response.frame) :=
    hwritten ▸ hframes.symm
  have hinjective : Function.Injective Response.frame := fun _ _ => Response.frame_injective
  exact ⟨q, p, hq, hp, hmem, hended, hwritten, responses, hanswered,
    (List.map_perm_map_iff hinjective).mp hsame⟩

end Piped

end AvatarPool
