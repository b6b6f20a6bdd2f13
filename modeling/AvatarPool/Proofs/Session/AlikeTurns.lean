import AvatarPool.Proofs.Session.Alike

/-! # Alike sessions take alike turns

Whoever takes a turn in two sessions that are alike but for callers who have left, does the same in
both of them, and they stay alike.

Each lemma follows the program of the one whose turn it is, branch by branch, and at every branch
the reason that both sessions take the same one is that it looks at the service, at a host, a
handler or a bridge, none of which can differ.  Only two kinds of turns look at calls.  A host asks
whether the caller that it runs for has gone away, and this caller is none of those who have left,
since a host does not run for a mere request.  A call looks at itself; if it is one of those who
have left, its turn does nothing that the others could notice. -/

namespace AvatarPool.Session.Alike

variable {gone : List Nat} {s t : Session} (h : Alike gone s t)

include h

/-! ## Handlers

A handler reads its frame, asks the service and replies.  Whether its reply can reach anybody is
known from the hosts and the bridges. -/

/-- Nobody can send over the bridge any more, on both sides or on neither. -/
theorem isSilent (link : Link) : s.isSilent link = t.isSilent link := by
  rw [Session.isSilent, Session.isSilent, h.hosts]

/-- A listener is woken when nothing more can come. -/
theorem hushLink (b : Nat) : Alike gone (s.hushLink b) (t.hushLink b) := by
  unfold Session.hushLink
  rw [h.links]
  split
  · rw [h.isSilent]
    split
    · exact h.wake _
    · exact h
  · exact h

/-- A writer is woken when its host has nothing more to write. -/
theorem hushWriter (i : Nat) : Alike gone (s.hushWriter i) (t.hushWriter i) := by
  unfold Session.hushWriter
  rw [h.linesHosts]
  split
  · split
    · exact h.wake _
    · exact h
  · exact h

/-- A lines host that waits for its handlers is woken by the last of them. -/
theorem hushLines (i : Nat) : Alike gone (s.hushLines i) (t.hushLines i) := by
  unfold Session.hushLines
  rw [h.linesHosts]
  split
  · split
    · exact h.wake _
    · exact h
  · exact h

/-- Handlers at work are counted where their frames came from. -/
theorem countInFlight (outlet : Outlet) (f : Nat → Nat) :
    Alike gone (s.countInFlight outlet f) (t.countInFlight outlet f) := by
  cases outlet with
  | view => exact h
  | lines i => exact h.modifyLines i (f := fun l => { l with inFlight := f l.inFlight }) fun _ => rfl
  | bridge b => exact h.modifyLink b _

/-- A new handler is given the next number, which is the same on both sides. -/
theorem addHandler (outlet : Outlet) (frame : String) :
    Alike gone (s.addHandler outlet frame) (t.addHandler outlet frame) := by
  have hadded := h.update
    (fun u => { u with handlers := u.handlers ++ [{ outlet := outlet, frame := frame }] })
    (fun _ => rfl) ⟨rfl, rfl, rfl⟩
  unfold Session.addHandler
  dsimp only
  rw [show t.handlers.length = s.handlers.length by rw [h.handlers]]
  exact (hadded.share.countInFlight outlet _).schedule _

/-- A response goes where the frame came from, or nowhere if its host has ended. -/
theorem send (outlet : Outlet) (r : Response) : Alike gone (s.send outlet r) (t.send outlet r) := by
  cases outlet with
  | view =>
      exact h.update (fun u => { u with frames := u.frames ++ [r.frame] }) (fun _ => rfl)
        ⟨rfl, rfl, rfl⟩
  | lines i =>
      unfold Session.send
      dsimp only
      rw [h.linesHosts]
      split
      · split
        · exact (h.modifyLines i (f := fun l => { l with writer := l.writer.push r.frame })
            fun _ => rfl).wake _
        · exact h
      · exact h
  | bridge b => exact (h.modifyLink b _).wake _

/-- Whoever waited for the last handler is woken. -/
theorem endHandler (outlet : Outlet) : Alike gone (s.endHandler outlet) (t.endHandler outlet) := by
  have hended := h.unshare.countInFlight outlet (· - 1)
  cases outlet with
  | view => exact hended
  | lines i => exact (hended.hushWriter i).hushLines i
  | bridge b => exact hended.hushLink b

theorem reply (outlet : Outlet) (r : Response) : Alike gone (s.reply outlet r) (t.reply outlet r) :=
  (h.send outlet r).endHandler outlet

/-- Which of its turns it is can be told from the handler itself. -/
theorem runHandler (k : Nat) : Alike gone (s.runHandler k) (t.runHandler k) := by
  have hended : s.service.hasEnded = t.service.hasEnded := by rw [h.service]
  unfold Session.runHandler
  rw [h.handlers]
  split
  · exact h
  · split
    · exact h.reply _ _
    · exact h
    · split
      · exact h.endHandler _
      · exact h.reply _ _
      · rename_i id job _
        rw [hended]
        split
        · exact h.reply _ _
        · have hread := h.update
            (fun u => { u with handlers := t.handlers.modify k fun x => { x with id := some id } })
            (fun _ => rfl) ⟨rfl, rfl, rfl⟩
          exact hread.request job _

/-! ## Frame hosts

A host that runs for somebody ends the call of that caller with itself. -/

/-- The call that it ends is a host's, if it has one. -/
theorem endHost (i : Nat) (host : FrameHost) : Alike gone (s.endHost i host) (t.endHost i host) := by
  have hstopped := h.modifyHost i (f := fun h => { h with inbox := [], running := false })
    fun _ => rfl
  unfold Session.endHost
  cases host.outlet with
  | bridge b =>
      have hsilent := hstopped.hushLink b
      cases host.call with
      | some n => exact hsilent.unshare.endCall n _
      | none => exact hsilent.unshare
  | view | lines =>
      cases host.call with
      | some n => exact hstopped.unshare.endCall n _
      | none => exact hstopped.unshare

/-- A host takes the same frames on both sides.  By induction on the number that one turn may take.
-/
theorem takeFrames (i : Nat) (inputs : Nat) :
    Alike gone (s.takeFrames i inputs) (t.takeFrames i inputs) := by
  induction inputs generalizing s t with
  | zero => exact h.postpone _
  | succ inputs ih =>
      unfold Session.takeFrames
      rw [h.hosts]
      split
      · exact h
      · rename_i host _
        split
        · exact h.endHost i host
        · split
          · rename_i rest _
            have htaken := h.modifyHost i (f := fun h => { h with inbox := rest }) fun _ => rfl
            exact ih (htaken.addHandler _ _)
          · split
            · exact h
            · exact h.endHost i host

/-- A frame host notices that its caller has gone away, which is none of those who have left. -/
theorem runHost (i : Nat) : Alike gone (s.runHost i) (t.runHost i) := by
  unfold Session.runHost
  rw [h.hosts]
  split
  · exact h
  · rename_i host hhost
    have hmem : host ∈ s.hosts := h.hosts ▸ List.mem_of_getElem? hhost
    have habandoned : host.call.any s.isAbandoned = host.call.any t.isAbandoned := by
      -- A call that a host runs for is not a request, so its caller is still there or gone in both.
      cases hcall : host.call with
      | none => rfl
      | some n =>
          have hhosted := h.hostCalls host hmem n hcall
          exact h.isAbandoned fun hn => hhosted.not_isRequest (h.requests n hn)
    rw [habandoned]
    split
    · exact h
    · split
      · exact h.endHost i host
      · exact h.takeFrames i turnBudget

/-! ## Lines hosts

The stages of a lines host follow one another in the same way on both sides; here too the call that
ends with it is its own. -/

theorem endLines (i call : Nat) (a : Option Answer) :
    Alike gone (s.endLines i call a) (t.endLines i call a) := by
  have hended := h.modifyLines i (f := fun l => { l with input := [], stage := .ended }) fun _ => rfl
  exact ((hended.hushWriter i).unshare).endCall call a

/-- The writer has finished, or the host waits on. -/
theorem awaitWriter (i : Nat) : Alike gone (s.awaitWriter i) (t.awaitWriter i) := by
  unfold Session.awaitWriter
  rw [h.linesHosts]
  split
  · exact h
  · split
    · exact h.endLines i _ _
    · split
      · exact h.endLines i _ _
      · exact h

theorem closeLines (i : Nat) : Alike gone (s.closeLines i) (t.closeLines i) := by
  have hclosing := h.modifyLines i (f := fun l => { l with stage := .closing }) fun _ => rfl
  exact (hclosing.hushWriter i).awaitWriter i

/-- An interrupted host waits for its handlers. -/
theorem answerLast (i : Nat) : Alike gone (s.answerLast i) (t.answerLast i) := by
  unfold Session.answerLast
  rw [h.linesHosts]
  split
  · exact h
  · split
    · exact h.closeLines i
    · exact h.modifyLines i (f := fun l => { l with stage := .answeringLast }) fun _ => rfl

/-- What comes after a stop depends on what it was for. -/
theorem afterStop (i : Nat) (interrupted : Bool) :
    Alike gone (s.afterStop i interrupted) (t.afterStop i interrupted) := by
  unfold Session.afterStop
  split
  · exact h.answerLast i
  · exact h.closeLines i

/-- A service that has ended need not be asked to stop. -/
theorem stopFor (i : Nat) (interrupted : Bool) :
    Alike gone (s.stopFor i interrupted) (t.stopFor i interrupted) := by
  unfold Session.stopFor
  rw [h.service]
  split
  · exact h.afterStop i interrupted
  · exact (h.modifyLines i (f := fun l => { l with stage := .stopping interrupted })
      fun _ => rfl).stopService _

/-- At the end of its input the host waits for its handlers. -/
theorem answerLines (i : Nat) : Alike gone (s.answerLines i) (t.answerLines i) := by
  unfold Session.answerLines
  rw [h.linesHosts]
  split
  · exact h
  · split
    · exact h.stopFor i false
    · exact h.modifyLines i (f := fun l => { l with stage := .answering }) fun _ => rfl

/-- Lines are handed to handlers one after the other, until the input ends or something stops the
host. -/
theorem readLines (i : Nat) (l : LinesHost) (bytes : List UInt8) :
    Alike gone (s.readLines i l bytes) (t.readLines i l bytes) := by
  -- By the bytes that are left: every line that is read leaves fewer.
  induction hsize : bytes.length using Nat.strongRecOn generalizing s t bytes with
  | ind size ih =>
    subst hsize
    rw [Session.readLines, Session.readLines]
    split
    · exact h.modifyLines i (f := fun l => { l with input := bytes }) fun _ => rfl
    · exact (h.modifyLines i (f := fun l => { l with input := [] }) fun _ => rfl).answerLines i
    · exact h.endLines i _ _
    · rename_i text rest hnext
      split
      · exact ih rest.length (Lines.next_length hnext) h rest rfl
      · exact ih rest.length (Lines.next_length hnext) (h.addHandler (.lines i) text) rest rfl

/-- A lines host notices that its caller has gone away, which is none of those who have left. -/
theorem runLines (i : Nat) : Alike gone (s.runLines i) (t.runLines i) := by
  unfold Session.runLines
  rw [h.linesHosts]
  split
  · exact h
  · rename_i l hl
    have hmem : l ∈ s.linesHosts := h.linesHosts ▸ List.mem_of_getElem? hl
    -- Reading and stopping are done alike, whichever of them the host turns to.
    have hreads : ∀ {u v : Session}, Alike gone u v → Alike gone
        (if l.cancelled then u.stopFor i true else u.readLines i l l.input)
        (if l.cancelled then v.stopFor i true else v.readLines i l l.input) := by
      intro u v huv
      split
      · exact huv.stopFor i true
      · exact huv.readLines i l l.input
    -- The call of a host is no request, and so not among those who have left.
    have hkept : l.call ∉ gone :=
      fun hn => (h.linesCalls l hmem).not_isRequest (h.requests l.call hn)
    rw [h.isAbandoned hkept]
    split
    · exact h
    · split
      · exact h.endLines i l.call none
      · dsimp only
        split
        · have hstarted := h.modifyLines i (f := fun l => { l with stage := .reading }) fun _ => rfl
          exact hreads (hstarted.schedule (.writer i))
        · exact hreads h
        · exact h.answerLines i
        · split
          · exact h.afterStop i _
          · exact h
        · exact h.answerLast i
        · exact h.awaitWriter i
        · exact h

/-- What it writes is seen outside, in the same order on both sides. -/
theorem runWriter (i : Nat) : Alike gone (s.runWriter i) (t.runWriter i) := by
  unfold Session.runWriter
  rw [h.linesHosts]
  split
  · exact h
  · split
    · exact h
    · rename_i l _ _
      dsimp only
      generalize (if l.writer.flush.1.isOpen && l.isSilent then
        { l.writer.flush.1 with finished := true } else l.writer.flush.1) = writer
      have hwritten := (h.modifyLines i (f := fun l => { l with writer := writer }) fun _ => rfl).update
        (fun u => { u with frames := u.frames ++ l.writer.flush.2 }) (fun _ => rfl) ⟨rfl, rfl, rfl⟩
      split
      · exact hwritten.wake _
      · exact hwritten

/-! ## Bridges

The client of a bridge tells calls what comes of their requests.  If such a call is of a caller who
has left, it does not matter what it is told. -/

/-- A client tells calls, publishes events, and posts requests, which is done elsewhere. -/
theorem carryOutBridge (b : Nat) (x : BridgeEffect Nat) :
    Alike gone (Session.carryOutBridge b s x) (Session.carryOutBridge b t x) := by
  cases x with
  | answered n outcome => exact h.arriveOutcome (.call n) outcome
  | published e => exact h.modifyLink b _
  | posted r => exact h

theorem setClient (b : Nat) (client : BridgeClient Nat) :
    Alike gone (s.setClient b client) (t.setClient b client) := by
  have hset := h.modifyLink b fun k => { k with client := { client with effects := [] } }
  exact List.foldl_rel hset fun x _ _ _ h => h.carryOutBridge b x

/-- Whether the host takes the frame depends on the host alone. -/
theorem pushFrame (i : Nat) (frame : String) :
    Alike gone (s.pushFrame i frame).1 (t.pushFrame i frame).1 ∧
      (s.pushFrame i frame).2 = (t.pushFrame i frame).2 := by
  unfold Session.pushFrame
  rw [h.hosts]
  split
  · split
    · exact ⟨(h.modifyHost i (f := fun h => { h with inbox := h.inbox ++ [frame] })
        fun _ => rfl).wake _, rfl⟩
    · exact ⟨h, rfl⟩
  · exact ⟨h, rfl⟩

/-- A request that the host does not take fails at once. -/
theorem post (b : Nat) (r : Request) : Alike gone (Session.post b s r) (Session.post b t r) := by
  unfold Session.post
  rw [h.links]
  split
  · exact h
  · rename_i link _
    obtain ⟨hpushed, htaken⟩ := h.pushFrame link.host r.frame
    generalize s.pushFrame link.host r.frame = p at hpushed htaken ⊢
    generalize t.pushFrame link.host r.frame = q at hpushed htaken ⊢
    obtain ⟨s', taken⟩ := p
    obtain ⟨t', taken'⟩ := q
    cases htaken
    cases taken with
    | true => exact hpushed
    | false => exact hpushed.setClient b _

/-- The client admits the request in the same way, and has the same to post. -/
theorem acceptThrough (b : Nat) (job : Job) (n : Nat) :
    Alike gone (s.acceptThrough b job n).1 (t.acceptThrough b job n).1 ∧
      (s.acceptThrough b job n).2 = (t.acceptThrough b job n).2 := by
  unfold Session.acceptThrough
  rw [h.links]
  split
  · exact ⟨h, rfl⟩
  · exact ⟨h.setClient b _, rfl⟩

/-- A client that is asked posts what there is to post. -/
theorem requestThrough (b : Nat) (job : Job) (n : Nat) :
    Alike gone (s.requestThrough b job n) (t.requestThrough b job n) := by
  obtain ⟨haccepted, hrequests⟩ := h.acceptThrough b job n
  unfold Session.requestThrough
  dsimp only
  rw [hrequests]
  exact List.foldl_rel haccepted fun r _ _ _ h => h.post b r

/-- A response is looked up by its id in the client. -/
theorem takeResponse (b : Nat) (frame : String) :
    Alike gone (Session.takeResponse b s frame) (Session.takeResponse b t frame) := by
  unfold Session.takeResponse
  rw [h.links]
  split
  · exact h
  · exact h.setClient b _

/-- Everybody who waits is told that the bridge is gone. -/
theorem loseLink (b : Nat) : Alike gone (s.loseLink b) (t.loseLink b) := by
  unfold Session.loseLink
  rw [h.links]
  split
  · exact h
  · exact (h.modifyLink b _).setClient b _

/-- All responses are taken, and then it may turn out that there will be no more. -/
theorem runListener (b : Nat) : Alike gone (s.runListener b) (t.runListener b) := by
  unfold Session.runListener
  rw [h.links]
  split
  · exact h
  · rename_i link _
    split
    · exact h
    · have hemptied := h.modifyLink b fun k => { k with responses := [] }
      have htaken : Alike gone (link.responses.foldl (Session.takeResponse b) _)
          (link.responses.foldl (Session.takeResponse b) _) :=
        List.foldl_rel hemptied fun frame _ _ _ h => h.takeResponse b frame
      dsimp only
      rw [htaken.isSilent]
      split
      · exact htaken.loseLink b
      · exact htaken

/-! ## The service and its workers

Neither the service nor a worker knows calls other than as names of those to be told. -/

theorem runDispatcher : Alike gone s.runDispatcher t.runDispatcher := by
  unfold Session.runDispatcher
  rw [h.service]
  exact h.setService _

/-- A worker's report is a move of the service. -/
theorem report (k : Nat) (ending : Ending) : Alike gone (s.report k ending) (t.report k ending) := by
  unfold Session.report
  rw [h.service]
  split
  · exact h.setService _
  · exact h

/-- The engine is asked, and answers at once or keeps the worker waiting. -/
theorem invoke (k : Nat) (job : Job) : Alike gone (s.invoke k job) (t.invoke k job) := by
  have hengine : s.engine = t.engine := (congrArg Session.engine h.seen :)
  have hbegun := h.update
    (fun u => { u with
      engine := (t.engine.begin job).1
      started := u.started ++ [key job]
      invocations := u.invocations + 1
      mostRunning := max u.mostRunning (u.held.length + u.released.length + 1) })
    (fun _ => rfl) ⟨rfl, rfl, rfl⟩
  unfold Session.invoke
  rw [hengine]
  dsimp only
  split
  · exact hbegun.report k _
  · exact hbegun.update (fun u => { u with held := u.held ++ [⟨job, k⟩] }) (fun _ => rfl)
      ⟨rfl, rfl, rfl⟩

/-- The next message for the worker is a task, or tells it to stop. -/
theorem takeWork (k : Nat) : Alike gone (s.takeWork k) (t.takeWork k) := by
  unfold Session.takeWork
  rw [h.service]
  split
  · exact h
  · rename_i service _
    dsimp only
    split
    · exact (h.setService service).invoke k _
    · exact h.setService service

/-- What the engine has released is reported first. -/
theorem runWorker (k : Nat) : Alike gone (s.runWorker k) (t.runWorker k) := by
  have hreleased : s.released = t.released := (congrArg Session.released h.seen :)
  unfold Session.runWorker
  rw [hreleased]
  split
  · have htaken := h.update
      (fun u => { u with released := t.released.filter fun r => r.1 ≠ k }) (fun _ => rfl)
      ⟨rfl, rfl, rfl⟩
    exact (htaken.report k _).takeWork k
  · exact h.takeWork k

/-- The watch looks at the clock, at the engine's start and at the gate. -/
theorem runWatch : Alike gone s.runWatch t.runWatch := by
  have hwatch : s.watch = t.watch := (congrArg Session.watch h.seen :)
  have hstart : s.start = t.start := (congrArg Session.start h.seen :)
  have hlook : s.watch.look s.service.clock s.start s.service.gate =
      t.watch.look t.service.clock t.start t.service.gate := by
    rw [hwatch, hstart, h.service]
  unfold Session.runWatch
  rw [hlook]
  obtain ⟨watch, gate⟩ := t.watch.look t.service.clock t.start t.service.gate
  have hlooked := h.update (fun u => { u with watch := watch }) (fun _ => rfl) ⟨rfl, rfl, rfl⟩
  exact hlooked.setGate gate

/-! ## Callers -/

/-- The call of a caller who has left ends, and has no handle to give back.  Such a call was made
without one. -/
theorem runCall_left {n : Nat} (hn : n ∈ gone) : Alike gone (s.runCall n) t := by
  obtain ⟨c, hc, hkind⟩ := Option.map_eq_some_iff.mp (h.requests n hn)
  have hholds : c.holds = false := (Prod.mk.inj hkind).2
  -- So the service does not hear of it.
  unfold Session.runCall
  rw [hc]
  dsimp only
  rw [hholds, if_neg Bool.false_ne_true]
  split
  · exact h.endCall_left hn _
  · exact h

/-- Any other call ends on both sides, or waits on. -/
theorem runCall (n : Nat) : Alike gone (s.runCall n) (t.runCall n) := by
  by_cases hn : n ∈ gone
  · exact ((h.runCall_left hn).symm.runCall_left hn).symm
  · unfold Session.runCall
    rw [h.getElem?_calls hn]
    split
    · split
      · dsimp only
        split
        · exact (h.endCall n _).unshare
        · exact h.endCall n _
      · exact h
    · exact h

/-- **Whoever takes a turn does the same in both sessions.**  By whose turn it is. -/
theorem run (v : Turn) : Alike gone (s.run v) (t.run v) := by
  cases v with
  | dispatcher => exact h.runDispatcher
  | worker k => exact h.runWorker k
  | call n => exact h.runCall n
  | handler k => exact h.runHandler k
  | host i => exact h.runHost i
  | lines i => exact h.runLines i
  | writer i => exact h.runWriter i
  | listener b => exact h.runListener b
  | watch => exact h.runWatch

end AvatarPool.Session.Alike
