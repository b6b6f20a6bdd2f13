import AvatarPool.Proofs.Session.Minted

/-! # Every client agrees with the engine

Calls ask the service of a session for jobs, some themselves and some through bridges, whose hosts
ask the same service for them.  The loop of the service, its workers, the gate, the clients, hosts
and handlers go on in any order, and frames cross the bridges in any order.  Nobody stops anything,
and the gate does not fail.  Then every call that ends has the answer that the engine gives
directly, up to the wording of a failure that has crossed a bridge. -/

namespace AvatarPool

open Session

/-- A session that clients use, with the requests that bridge clients have yet to post. -/
structure Clientele where
  session : Session
  unposted : List (Nat × Request) := []

/-- What happens in one go among clients. -/
inductive ClientMove where
  /-- The loop of the service, a worker, the gate or the clock goes on. -/
  | service (m : Move Session.Caller)
  /-- A call, a handler or a frame host takes a turn. -/
  | turn (t : Session.Turn)
  /-- The next round begins. -/
  | resume
  /-- A bridge client connects that mints its ids in the given way. -/
  | connect (minting : Minting)
  /-- A call asks the service for a job. -/
  | ask (job : Job) (form : Session.Form)
  /-- A call asks the client of a bridge for a job. -/
  | through (b : Nat) (job : Job) (form : Session.Form)
  /-- The client of a bridge posts a request. -/
  | post (b : Nat) (r : Request)
  /-- One of the responses on their way comes to the client of its bridge. -/
  | deliver (b i : Nat)
  /-- A caller goes away. -/
  | abandon (n : Nat)

/-- What a move asks for, if it is a call. -/
def ClientMove.ask? : ClientMove → Option Session.Ask
  | ask job form => some ⟨none, job, form⟩
  | through b job form => some ⟨some b, job, form⟩
  | _ => none

/-- Whether it is the turn of a call, a handler or a frame host. -/
def Session.Turn.isOfClients : Session.Turn → Bool
  | .call _ | .handler _ | .host _ => true
  | _ => false

namespace Clientele

/-- A session at its start. -/
def start (config : PoolSettings) (engine : Session.Engine) (drive : GateDrive) : Clientele where
  session := create config engine drive

/-- A call through a bridge, whose client has yet to post what there is to post. -/
def callThrough (p : Clientele) (b : Nat) (job : Job) (form : Form) : Clientele :=
  let n := p.session.calls.length
  let (s, requests) := (p.session.newCall (.call n) form false).acceptThrough b job n
  { session := s.schedule (.call n), unposted := p.unposted ++ requests.map (b, ·) }

/-- Response `i` of those on their way comes to the client of bridge `b`. -/
def deliver (s : Session) (b i : Nat) : Option Session :=
  (s.links[b]?.bind fun link => link.responses[i]?).map fun frame =>
    takeResponse b (s.modifyLink b fun k => { k with responses := k.responses.eraseIdx i }) frame

/-- **One move**, or none where it cannot be made: whoever takes a turn has been woken, and the
engine is pure, becomes ready without a failure, and nobody stops the service. -/
def move (e : PureEngine) (p : Clientele) : ClientMove → Option Clientele
  | .service m =>
    if m.isInner ∧ m.IsCalm e then
      (p.session.service.move m).map fun u => { p with session := p.session.setService u }
    else none
  | .turn t =>
    if t ∈ p.session.agenda ∧ t.isOfClients then
      some { p with session := { p.session with agenda := p.session.agenda.erase t }.run t }
    else none
  | .resume => some { p with session := p.session.resume }
  | .connect minting => some { p with session := p.session.connectWith minting }
  | .ask job form => some { p with session := (p.session.perform (.ask job form false)).1 }
  | .through b job form => some (p.callThrough b job form)
  | .post b r =>
    if (b, r) ∈ p.unposted then
      some { session := post b p.session r, unposted := p.unposted.erase (b, r) }
    else none
  | .deliver b i => (deliver p.session b i).map fun s => { p with session := s }
  | .abandon n => some { p with session := p.session.abandon n }

/-- **A run**: moves one after the other. -/
def play (e : PureEngine) (p : Clientele) : List ClientMove → Option Clientele
  | [] => some p
  | m :: τ => (p.move e m).bind fun q => q.play e τ

/-- The calls of a run, by their numbers. -/
def asked (τ : List ClientMove) : List Ask := τ.filterMap ClientMove.ask?

variable {e : PureEngine} {asks : List Ask} {p q : Clientele} {m : ClientMove}
  {τ : List ClientMove} {s t : Session}

theorem asked_concat (τ : List ClientMove) (m : ClientMove) :
    asked (τ ++ [m]) = asked τ ++ m.ask?.toList := by
  rw [asked, List.filterMap_append, filterMap_singleton]
  rfl

/-- The last move is made where the others have led to. -/
theorem play_concat_eq_some_iff :
    p.play e (τ ++ [m]) = some q ↔ ∃ p', p.play e τ = some p' ∧ p'.move e m = some q := by
  induction τ generalizing p with
  | nil => simp [play]
  | cons m' τ ih =>
      show (p.move e m').bind (fun p' => p'.play e (τ ++ [m])) = some q ↔
        ∃ p', (p.move e m').bind (fun p' => p'.play e τ) = some p' ∧ p'.move e m = some q
      cases p.move e m' with
      | none => simp
      | some p' => exact ih

/-! ## One move -/

/-- **A move leaves every bridge in its place**, whatever state it is made in. -/
theorem elder_of_move (h : p.move e m = some q) : Elder p.session q.session := by
  cases m with
  | service m =>
      obtain ⟨-, hmove⟩ := Option.ite_none_right_eq_some.mp h
      obtain ⟨u, -, rfl⟩ := Option.map_eq_some_iff.mp hmove
      exact .setService _ u
  | turn t =>
      obtain ⟨⟨-, hclient⟩, rfl⟩ := Option.ite_some_none_eq_some.mp h
      -- Taking a turn off the agenda touches no bridge, and each turn keeps them.
      have herased : Elder p.session { p.session with agenda := p.session.agenda.erase t } :=
        .of_links rfl
      cases t with
      | call n => exact herased.trans (.runCall _ n)
      | handler n => exact herased.trans (.runHandler _ n)
      | host b => exact herased.trans (.runHost _ b)
      | _ => cases hclient
  | resume =>
      cases h
      exact .of_body (body_resume _)
  | connect minting =>
      cases h
      exact .connectWith _ minting
  | ask job form =>
      cases h
      let n := p.session.calls.length
      have hadded : Elder p.session (p.session.newCall (.call n) form false) := .of_links rfl
      exact (hadded.trans (.setService _ _)).trans (.schedule _ _)
  | through b job form =>
      cases h
      let n := p.session.calls.length
      have hadded : Elder p.session (p.session.newCall (.call n) form false) := .of_links rfl
      exact (hadded.trans (.acceptThrough _ b job n)).trans (.schedule _ _)
  | post b r =>
      obtain ⟨-, rfl⟩ := Option.ite_some_none_eq_some.mp h
      exact .post b _ r
  | deliver b i =>
      obtain ⟨s, hs, rfl⟩ := Option.map_eq_some_iff.mp h
      obtain ⟨frame, -, rfl⟩ := Option.map_eq_some_iff.mp hs
      have htaken : Elder p.session
          (p.session.modifyLink b fun k => { k with responses := k.responses.eraseIdx i }) :=
        .modifyLink_same _ b fun _ => rfl
      exact htaken.trans (.takeResponse b _ frame)
  | abandon n =>
      cases h
      exact .abandon _ n

/-- **A move keeps a session sound**, with the call that it makes, if it makes one. -/
theorem sound_of_move (hs : Sound e asks p.unposted p.session) (hfresh : p.session.Unrepeated)
    (h : p.move e m = some q) : Sound e (asks ++ m.ask?.toList) q.unposted q.session := by
  cases m with
  | service m =>
      obtain ⟨⟨hinner, hcalm⟩, hmove⟩ := Option.ite_none_right_eq_some.mp h
      obtain ⟨u, hu, rfl⟩ := Option.map_eq_some_iff.mp hmove
      exact (List.append_nil asks).symm ▸ hs.move hinner hcalm hu
  -- Nothing is asked in a turn, so what has been asked stays as it is.
  | turn t =>
      obtain ⟨⟨hagenda, hclient⟩, rfl⟩ := Option.ite_some_none_eq_some.mp h
      refine (List.append_nil asks).symm ▸ ?_
      cases t with
      | call n => exact (hs.erase _).runCall n
      | handler n => exact hs.runHandler hagenda
      | host b => exact (hs.erase _).runHost b
      | _ => cases hclient
  | resume =>
      cases h
      exact (List.append_nil asks).symm ▸ hs.resume
  | connect minting =>
      cases h
      exact (List.append_nil asks).symm ▸ hs.connectWith minting
  | ask job form =>
      cases h
      exact hs.ask job form
  | through b job form =>
      cases h
      -- The call gets the next number, which stands for what it asks for.
      have hasks : AsksFor (asks ++ [⟨some b, job, form⟩]) (some b) p.session.calls.length
          job.fingerprint := by
        rw [hs.fair.heard.count]
        exact ⟨_, List.getElem?_concat_length, rfl, rfl⟩
      exact ((hs.newCall ⟨some b, job, form⟩).acceptThrough hasks).schedule nofun
  | post b r =>
      obtain ⟨hmem, rfl⟩ := Option.ite_some_none_eq_some.mp h
      exact (List.append_nil asks).symm ▸ hs.post hmem
  | deliver b i =>
      obtain ⟨s, hdeliver, rfl⟩ := Option.map_eq_some_iff.mp h
      obtain ⟨frame, hbind, rfl⟩ := Option.map_eq_some_iff.mp hdeliver
      obtain ⟨link, hlink, hframe⟩ := Option.bind_eq_some_iff.mp hbind
      exact (List.append_nil asks).symm ▸
        hs.takeResponse hlink hframe (hfresh link (List.mem_of_getElem? hlink))
  | abandon n =>
      cases h
      exact (List.append_nil asks).symm ▸ hs.abandon n

/-! ## Runs -/

/-- **After any run a session is sound** for all that has been asked, if its bridges have not minted
an id twice. -/
theorem sound_of_play {config : PoolSettings} {engine : Session.Engine} {drive : GateDrive}
    (h : (start config engine drive).play e τ = some p) (hfresh : p.session.Unrepeated) :
    Sound e (asked τ) p.unposted p.session := by
  induction τ using List.reverseRecOn generalizing p with
  | nil =>
      cases h
      exact .create e config engine drive
  | append_singleton τ m ih =>
      obtain ⟨p', hp', hm⟩ := play_concat_eq_some_iff.mp h
      have hbefore := (elder_of_move hm).unrepeated hfresh
      rw [asked_concat]
      exact sound_of_move (ih hp' hbefore) hbefore hm

/-- **Every client agrees with the engine.**  After any run, every call that has ended has ended
with the answer to what it asked for: the outcome that the engine gives directly, or over a bridge
the same artifact, or the wording of the same failure. -/
theorem every_client_agrees {config : PoolSettings} {engine : Session.Engine} {drive : GateDrive}
    {n : Nat} {a : Answer} (h : (start config engine drive).play e τ = some p)
    (hfresh : p.session.Unrepeated) (ha : (n, a) ∈ p.session.done) :
    ∃ q, (asked τ)[n]? = some q ∧ a = q.answer e :=
  (sound_of_play h hfresh).fair.heard.done n a ha

/-- An engine with three bytes for every picture, which knows one name, breaks off at another one and
refuses all others. -/
def strict : PureEngine where
  render _ _ := .value [137, 80, 78]
  name seed :=
    if seed = "x" then .value "Robot x"
    else if seed = "kaput" then .broken
    else .refused ("no robot is called \"" ++ seed ++ "\"")

/-- A name that is hard to quote. -/
def quoted : Job := .name "a;\"b\""

def pixels : Job := .image "a;\"b\"" .small

/-- The name that is known. -/
def known : Job := .name "x"

/-- The name at which the engine breaks off. -/
def kaput : Job := .name "kaput"

/-- Two bridges and three calls ask for names and a picture.  The posts, the reports and the responses
each overtake one another. -/
def crossedRun : List ClientMove :=
  [.connect .counter, .connect (.texts fun n => "id-" ++ toString n), .ask quoted .artifact,
    .through 0 quoted .artifact, .through 1 pixels .artifact, .ask known .artifact,
    .through 1 known .artifact, .ask kaput .artifact, .through 0 kaput .artifact,
    .post 1 (.ofJob (.text "id-1") known), .post 1 (.ofJob (.text "id-0") pixels),
    .post 0 (.ofJob (.counter 2) kaput), .post 0 (.ofJob (.counter 1) quoted), .turn (.host 1),
    .turn (.host 0), .turn (.handler 0), .turn (.handler 1), .turn (.handler 2), .turn (.handler 3),
    .service .begin, .service .command, .service .command, .service .command, .service .command,
    .service .command, .service .command, .service .command, .service (.take 0), .service (.take 1),
    .service (.finish 1 (.ofJob known) (strict.ending known)),
    .service (.finish 0 (.ofJob quoted) (strict.ending quoted)),
    .service (.report ⟨1, known.fingerprint, strict.direct known⟩),
    .service (.report ⟨0, quoted.fingerprint, strict.direct quoted⟩), .service (.take 0),
    .service (.take 1), .service (.finish 0 (.ofJob pixels) (strict.ending pixels)),
    .service (.finish 1 (.ofJob kaput) (strict.ending kaput)),
    .service (.report ⟨0, pixels.fingerprint, strict.direct pixels⟩),
    .service (.report ⟨1, kaput.fingerprint, strict.direct kaput⟩), .turn (.call 5), .turn (.call 3),
    .turn (.call 0), .turn (.handler 3), .turn (.handler 2), .turn (.handler 1), .turn (.handler 0),
    .deliver 1 1, .deliver 0 0, .deliver 0 0, .deliver 1 0, .turn (.call 6), .turn (.call 4),
    .turn (.call 2), .turn (.call 1)]

/-- How the calls end: the known name is the same on both sides of a bridge, and a refusal and a
breakdown cross it in the words of the service. -/
def crossedAnswers : List (Nat × Answer) :=
  [(5, .artifact (.error (.enginePanicked "kaput"))), (3, .artifact (.ok (.name "Robot x"))),
    (0, .artifact (.error (.engine "no robot is called \"a;\"b\"\""))),
    (6, .artifact (.error (.remote "Engine panicked while rendering kaput"))),
    (4, .artifact (.ok (.name "Robot x"))), (2, .artifact (.ok (.image (.ofPng [137, 80, 78])))),
    (1, .artifact (.error (.remote "Engine error: no robot is called \"a;\"b\"\"")))]

set_option maxRecDepth 100000 in
theorem every_client_agrees_crossed :
    ∃ p : Clientele, (start { poolSize := 2 } .builtIn .opened).play strict crossedRun = some p ∧
      p.session.Unrepeated ∧ p.session.done = crossedAnswers := by
  have hplay : ((start { poolSize := 2 } .builtIn .opened).play strict crossedRun).any fun p =>
      p.session.done.map Prod.fst = [5, 3, 0, 6, 4, 2, 1] ∧ p.session.Unrepeated := by
    decide +kernel
  obtain ⟨p, hp, hends⟩ := (Option.any_eq_true _ _).mp hplay
  obtain ⟨hdone, hfresh⟩ := of_decide_eq_true hends
  -- Which calls have ended is read off the run, and with which answer follows from the theorem.
  have hanswers : p.session.done.map (fun d => (d.1, some d.2)) =
      (p.session.done.map Prod.fst).map fun n =>
        (n, (asked crossedRun)[n]?.map fun q => q.answer strict) := by
    rw [List.map_map]
    refine List.map_congr_left fun d hd => ?_
    obtain ⟨q, hq, ha⟩ := every_client_agrees hp hfresh hd
    rw [Function.comp_apply, hq, ha]
    rfl
  rw [hdone] at hanswers
  have hinjective : Function.Injective fun d : Nat × Answer => (d.1, some d.2) := by
    rintro ⟨n, a⟩ ⟨m, b⟩ heq
    cases heq
    rfl
  exact ⟨p, hp, hfresh, hinjective.list_map (hanswers.trans rfl)⟩

end Clientele

end AvatarPool
