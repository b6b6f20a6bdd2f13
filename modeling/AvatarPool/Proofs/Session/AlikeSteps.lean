import AvatarPool.Proofs.Session.AlikeTurns

/-! # Steps taken in alike sessions

Whatever is done from outside to two sessions that are alike but for callers who have left, leads to
alike sessions.  A caller who has only asked for something and leaves one of them makes no difference
either.

A step is made of the operations that were compared before.  What is new here are calls and hosts
that are added: their numbers are those of the calls and hosts there are, which are as many on both
sides, and since callers who have left have calls already, a new call is never one of theirs. -/

namespace AvatarPool.Session

variable {gone : List Nat} {s t : Session}

/-! ## Calls that are added -/

/-- The calls there are stay what they are when others are added. -/
theorem kind?_append {n : Nat} {k : Turn × Bool} (h : s.kind? n = some k) (more : List Call)
    (ht : t.calls = s.calls ++ more) : t.kind? n = some k := by
  obtain ⟨c, hc, hk⟩ := Option.map_eq_some_iff.mp h
  rw [kind?, ht, List.getElem?_append_left (List.getElem?_eq_some_iff.mp hc).1, hc, Option.map_some,
    hk]

theorem calls_newCall (s : Session) (v : Turn) (form : Form) (holds : Bool) :
    (s.newCall v form holds).calls = s.calls ++ [{ turn := v, form := form, holds := holds }] := by
  unfold newCall
  cases holds <;> rfl

/-- A call that is added for a host is run by it. -/
theorem isHosted_newCall {v : Turn} (hv : ∀ n, v ≠ .call n) (form : Form) :
    (s.newCall v form false).IsHosted s.calls.length := by
  refine ⟨v, false, ?_, hv _⟩
  rw [kind?, calls_newCall, List.getElem?_concat_length]
  rfl

/-- The host that serves is changed, and woken at most. -/
theorem calls_withServer (s : Session) (f : FrameHost → FrameHost) :
    (s.withServer f).calls = s.calls := by
  unfold withServer
  split
  · exact (congrArg Session.calls (body_wake _ _) :)
  · rfl

/-- A lines host that is told something is woken at most. -/
theorem calls_withLines (s : Session) (f : LinesHost → LinesHost) :
    (s.withLines f).calls = s.calls := by
  unfold withLines
  dsimp only
  split
  · exact (congrArg Session.calls (body_wake _ _) :)
  · rfl

namespace Alike

/-- **A call is added**, which is nobody's who has left. -/
theorem addCall (h : Alike gone s t) (c : Call) :
    Alike gone { s with calls := s.calls ++ [c] } { t with calls := t.calls ++ [c] } := by
  -- Nothing changes for the calls there are.
  have hkind : ∀ {n : Nat} {k}, s.kind? n = some k →
      Session.kind? { s with calls := s.calls ++ [c] } n = some k :=
    fun hk => kind?_append hk [c] rfl
  have hhosted : ∀ {n : Nat}, s.IsHosted n → IsHosted { s with calls := s.calls ++ [c] } n :=
    fun ⟨v, holds, hk, hv⟩ => ⟨v, holds, hkind hk, hv⟩
  refine ⟨?_, fun n hn => hkind (h.requests n hn),
    fun host hhost n hn => hhosted (h.hostCalls host hhost n hn),
    fun l hl => hhosted (h.linesCalls l hl)⟩
  -- Whoever has left has a call already, under a smaller number.
  have hnew : s.calls.length ∉ gone := fun hn => Nat.lt_irrefl _ (h.requests _ hn).lt_length
  have hlast : ∀ u : Session, u.calls.length ∉ gone →
      (u.calls ++ [c]).mapIdx (fun n c => if n ∈ gone then c.vacated else c) =
        (u.without gone).calls ++ [c] := by
    intro u hu
    simp [without, List.mapIdx_append, hu]
  unfold without
  dsimp only
  rw [hlast s hnew, hlast t (h.length_calls ▸ hnew)]
  exact congrArg (fun u : Session => { u with calls := u.calls ++ [c] }) h.seen

section

variable (h : Alike gone s t)

include h

/-- With a handle of its own, if it is to hold one. -/
theorem newCall (v : Turn) (form : Form) (holds : Bool) :
    Alike gone (s.newCall v form holds) (t.newCall v form holds) := by
  have hadded := h.addCall { turn := v, form := form, holds := holds }
  unfold Session.newCall
  dsimp only
  split
  · exact hadded.share
  · exact hadded

/-- **A call begins**, whatever it asks for. -/
theorem begin (form : Form) (holds : Bool) {ask : Nat → Session → Session}
    (hask : ∀ n {u v : Session}, Alike gone u v → Alike gone (ask n u) (ask n v)) :
    Alike gone (s.begin form holds ask).1 (t.begin form holds ask).1 := by
  -- The new call has the same number on both sides.
  unfold Session.begin
  dsimp only
  rw [h.length_calls]
  exact (hask _ (h.newCall _ form holds)).schedule _

/-- A frame is answered at once if what was read from it asks for nothing. -/
theorem askAs (n : Nat) (r : BridgeHost.Reading) (shown : Response → Answer) :
    Alike gone (s.askAs n r shown) (t.askAs n r shown) := by
  cases r with
  | work id job => exact h.request job _
  | reply r => exact h.arrive n _
  | ignore => exact h.arrive n _

/-! ## The engine, the gate and the clock -/

/-- The invocation held for the longest time is released, which is the same on both sides. -/
theorem release (which : Which) (act : Act) :
    Alike gone (s.release which act).1 (t.release which act).1 := by
  have hheld : s.held = t.held := (congrArg Session.held h.seen :)
  unfold Session.release
  rw [hheld]
  split
  · exact h
  · rename_i i x _
    -- Neither the engine nor what it holds belongs to a call.
    have hreleased := h.update
      (fun u => { u with
        held := t.held.eraseIdx i
        released := u.released ++ [(x.worker, act.ending x.job)] }) (fun _ => rfl) ⟨rfl, rfl, rfl⟩
    exact hreleased.wake (.worker x.worker)

theorem deadlines : s.deadlines = t.deadlines := by
  have hwatch : s.watch = t.watch := (congrArg Session.watch h.seen :)
  rw [Session.deadlines, Session.deadlines, hwatch, h.service]

/-- Whoever's time has come is put on the agenda, on both sides alike. -/
theorem advance (millis : Nat) : Alike gone (s.advance millis) (t.advance millis) := by
  have hclock : s.service.clock = t.service.clock := by rw [h.service]
  have hpassed := h.update
    (fun u => { u with service := { u.service with clock := t.service.clock + millis } })
    (fun _ => rfl) ⟨rfl, rfl, rfl⟩
  unfold Session.advance
  dsimp only
  rw [hclock, hpassed.deadlines]
  -- One after the other, and after each of them the sessions are alike.
  exact List.foldl_rel hpassed fun d _ _ _ h => h.schedule d.2

/-- The gate can be set as long as somebody holds it. -/
theorem withGate (f : Gate → Gate) : Alike gone (s.withGate f) (t.withGate f) := by
  unfold Session.withGate
  rw [h.service]
  split
  · exact h.setGate _
  · exact h

/-- The start of the engine ends once, on both sides or on neither. -/
theorem endStart (ended : Startup) : Alike gone (s.endStart ended).1 (t.endStart ended).1 := by
  have hwatch : s.watch = t.watch := (congrArg Session.watch h.seen :)
  have hstart : s.start = t.start := (congrArg Session.start h.seen :)
  have hopen : (s.watch.isWaiting && s.start.isNone) = (t.watch.isWaiting && t.start.isNone) := by
    rw [hwatch, hstart]
  unfold Session.endStart
  rw [hopen]
  split
  · exact (h.update (fun u => { u with start := some ended }) (fun _ => rfl) ⟨rfl, rfl, rfl⟩).wake _
  · exact h

/-! ## Hosts -/

theorem withHost (i : Nat) {f : FrameHost → FrameHost} (hf : ∀ host, (f host).call = host.call) :
    Alike gone (s.withHost i f) (t.withHost i f) := (h.modifyHost i hf).wake _

/-- The host that serves is the same on both sides. -/
theorem withServer {f : FrameHost → FrameHost} (hf : ∀ host, (f host).call = host.call) :
    Alike gone (s.withServer f) (t.withServer f) := by
  have hserver : s.server = t.server := (congrArg Session.server h.seen :)
  unfold Session.withServer
  rw [hserver]
  split
  · exact h.withHost _ hf
  · exact h

/-- A host that runs for a call must do so for one that is not a mere request. -/
theorem newHost (host : FrameHost) (hhosted : ∀ n, host.call = some n → s.IsHosted n) :
    Alike gone (s.newHost host) (t.newHost host) := by
  have hadded : Alike gone { s with hosts := s.hosts ++ [host] }
      { t with hosts := t.hosts ++ [host] } := by
    refine ⟨congrArg (fun u : Session => { u with hosts := u.hosts ++ [host] }) h.seen, h.requests,
      fun x hx n hn => ?_, h.linesCalls⟩
    -- The host was there before, or it is the new one.
    rcases List.mem_append.mp hx with hold | hlast
    · exact h.hostCalls x hold n hn
    · exact hhosted n (List.mem_singleton.mp hlast ▸ hn)
  unfold Session.newHost
  dsimp only
  rw [h.hosts] at hadded ⊢
  exact hadded.share.schedule _

/-- The host gets a call of its own, which has just been made for it, so nobody who has left has it.
-/
theorem serve : Alike gone s.serve.1 t.serve.1 := by
  -- The host that served before closes, and is replaced.
  have hclosed := h.withServer (f := fun h => { h with isOpen := false }) fun _ => rfl
  have hlength : (s.withServer fun h => { h with isOpen := false }).calls.length = s.calls.length := by
    rw [calls_withServer]
  have hhosted := isHosted_newCall (s := s.withServer fun h => { h with isOpen := false })
    (v := .host s.hosts.length) nofun .text
  rw [hlength] at hhosted
  have hadded := (hclosed.newCall (.host s.hosts.length) .text false).newHost
    { outlet := .view, call := some s.calls.length } fun n hn => by
      cases hn
      exact hhosted
  have hserved := hadded.update (fun u => { u with server := some s.hosts.length }) (fun _ => rfl)
    ⟨rfl, rfl, rfl⟩
  unfold Session.serve
  dsimp only
  rw [← h.hosts, ← h.length_calls]
  exact hserved

/-- A frame is taken by an open host. -/
theorem pushServer (frame : String) : Alike gone (s.pushServer frame).1 (t.pushServer frame).1 := by
  have hserver : s.server = t.server := (congrArg Session.server h.seen :)
  unfold Session.pushServer
  rw [hserver]
  split
  · exact h
  · rename_i i _
    -- Whether the frame is taken is a matter of the host.
    have hopen : s.hosts[i]?.any FrameHost.isOpen = t.hosts[i]?.any FrameHost.isOpen := by
      rw [h.hosts]
    rw [hopen]
    split
    · exact (h.pushFrame i frame).1
    · exact h

/-- A lines host is changed, and woken if it reads. -/
theorem withLines {f : LinesHost → LinesHost} (hf : ∀ l, (f l).call = l.call) :
    Alike gone (s.withLines f) (t.withLines f) := by
  have hchanged := h.modifyLines (s.linesHosts.length - 1) hf
  -- Whether the host is woken is a matter of its stage.
  have hreading : (s.modifyLines (s.linesHosts.length - 1) f).linesHosts =
      (t.modifyLines (s.linesHosts.length - 1) f).linesHosts := hchanged.linesHosts
  unfold Session.withLines
  dsimp only
  rw [← h.linesHosts, hreading]
  split
  · exact hchanged.wake _
  · exact hchanged

/-- A lines host that is added must run for a call that is not a mere request. -/
theorem newLines {l : LinesHost} (hhosted : s.IsHosted l.call) :
    Alike gone { s with linesHosts := s.linesHosts ++ [l] }
      { t with linesHosts := t.linesHosts ++ [l] } := by
  refine ⟨congrArg (fun u : Session => { u with linesHosts := u.linesHosts ++ [l] }) h.seen,
    h.requests, h.hostCalls, fun x hx => ?_⟩
  rcases List.mem_append.mp hx with hold | hlast
  · exact h.linesCalls x hold
  · cases List.mem_singleton.mp hlast
    exact hhosted

/-- A lines host that serves gets a call of its own, as a frame host does. -/
theorem serveLines (limit : Option Nat) : Alike gone (s.serveLines limit).1 (t.serveLines limit).1 := by
  have hended := h.withLines (f := fun l => { l with atEnd := true }) fun _ => rfl
  have hlength : (s.withLines fun l => { l with atEnd := true }).calls.length = s.calls.length := by
    rw [calls_withLines]
  have hhosted := isHosted_newCall (s := s.withLines fun l => { l with atEnd := true })
    (v := .lines s.linesHosts.length) nofun .text
  rw [hlength] at hhosted
  have hcalled := hended.newCall (.lines s.linesHosts.length) .text false
  unfold Session.serveLines
  dsimp only
  rw [← h.linesHosts, ← h.length_calls]
  -- Both sides are compared with the call already made.
  generalize (s.withLines fun l => { l with atEnd := true }).newCall (.lines s.linesHosts.length)
    .text false = u at hcalled hhosted ⊢
  generalize (t.withLines fun l => { l with atEnd := true }).newCall (.lines s.linesHosts.length)
    .text false = v at hcalled ⊢
  have hadded := hcalled.newLines (l := { call := s.calls.length, writer := { limit := limit } })
    hhosted
  exact hadded.share.schedule _

/-- Whether it takes what is written depends on the host alone. -/
theorem writeLines (bytes : List UInt8) :
    Alike gone (s.writeLines bytes).1 (t.writeLines bytes).1 := by
  unfold Session.writeLines
  rw [h.linesHosts]
  split
  · split
    · exact h
    · split
      · exact h
      · exact h.withLines fun _ => rfl
  · exact h

/-- The numbers of the bridge and of its host are the same on both sides. -/
theorem connectWith (minting : Minting) :
    Alike gone (s.connectWith minting) (t.connectWith minting) := by
  have hlinked := h.update (fun u => { u with
    links := u.links ++ [{ client := { minting := minting }, host := t.hosts.length }] })
    (fun _ => rfl) ⟨rfl, rfl, rfl⟩
  have hhost := hlinked.newHost { outlet := .bridge t.links.length } fun n => nofun
  unfold Session.connectWith
  dsimp only
  rw [show s.links.length = t.links.length by rw [h.links],
    show s.hosts.length = t.hosts.length by rw [h.hosts]]
  exact hhost.schedule _

/-- A host that is stopped is woken to notice. -/
theorem stopHost (b : Nat) : Alike gone (s.stopHost b) (t.stopHost b) := by
  unfold Session.stopHost
  rw [h.links]
  split
  · exact h.withHost _ fun _ => rfl
  · exact h

/-! ## Callers who go away -/

/-- What a caller who has left does further does not count.  Its turn is put on the agenda, and does
not count. -/
theorem abandon_left {n : Nat} (hn : n ∈ gone) : Alike gone (s.abandon n) t := by
  obtain ⟨c, hc, hkind⟩ := Option.map_eq_some_iff.mp (h.requests n hn)
  have hturn : c.turn = .call n := (Prod.mk.inj hkind).1
  unfold Session.abandon
  rw [hc]
  dsimp only
  rw [hturn]
  -- It does not wait any more, or it is marked and gets its last turn.
  split
  · have hleft := h.modifyCall_left hn (f := fun c => { c with abandoned := true }) fun _ => rfl
    exact hleft.schedule_left (Turn.isOf_call.mpr hn)
  · exact h

/-- Another caller goes away.  Whoever it is, both sides know alike whether it still waits. -/
theorem abandon (n : Nat) : Alike gone (s.abandon n) (t.abandon n) := by
  -- If it has left one of the sides, it has left both.
  by_cases hn : n ∈ gone
  · exact ((h.abandon_left hn).symm.abandon_left hn).symm
  · unfold Session.abandon
    rw [h.getElem?_calls hn]
    split
    · split
      · have hleft := h.modifyCall n (f := fun c => { c with abandoned := true }) fun _ => rfl
        exact hleft.schedule _
      · exact h
    · exact h

/-- **A caller who has only asked for something leaves** one of the sessions, and that is all that
tells them apart from then on. -/
theorem leave {n : Nat} (hn : s.IsRequest n) : Alike (gone ++ [n]) (s.abandon n) t := by
  have hsub : gone ⊆ gone ++ [n] := List.subset_append_left gone [n]
  have hmore : Alike (gone ++ [n]) s t := by
    refine ⟨?_, fun m hm => ?_, h.hostCalls, h.linesCalls⟩
    · rw [← without_without hsub s, h.seen, without_without hsub t]
    · rcases List.mem_append.mp hm with hold | hlast
      · exact h.requests m hold
      · exact List.mem_singleton.mp hlast ▸ hn
  -- Once it is one of those who have left, it does not count what it does.
  exact hmore.abandon_left (List.mem_append_right gone (List.mem_singleton_self n))

/-! ## Every step -/

/-- **The same step is taken in both sessions.**  By the steps, each of which is one of the
operations above. -/
theorem perform (step : Step) : Alike gone (s.perform step).1 (t.perform step).1 := by
  -- Calls that begin, hosts that are changed, and the rest of the world.
  cases step with
  | ask job form holds => exact h.begin form holds fun n _ _ h => h.request job (.call n)
  | release which act => exact h.release which act
  | script k act =>
      exact h.update (fun u => { u with engine := u.engine.script k act }) (fun _ => rfl)
        ⟨rfl, rfl, rfl⟩
  | setGate state => exact h.withGate fun g => g.set state
  | dropGate => exact h.withGate _
  | ready act => exact h.endStart _
  | advance millis => exact h.advance millis
  | abandon n => exact h.abandon n
  | shutdown => exact h.begin .text false fun n _ _ h => h.stopService (.call n)
  | dropClient =>
      have howns : s.ownsHandle = t.ownsHandle := (congrArg Session.ownsHandle h.seen :)
      have hdropped := h.update (fun u => { u with ownsHandle := false }) (fun _ => rfl)
        ⟨rfl, rfl, rfl⟩
      unfold Session.perform
      dsimp only
      rw [howns]
      split
      · exact hdropped.unshare
      · exact h
  | frame text => exact h.begin _ true fun n _ _ h => h.askAs n _ _
  | handle r => exact h.begin _ true fun n _ _ h => h.askAs n _ _
  | serve => exact h.serve
  | servePush text => exact h.pushServer text
  | serveClose => exact h.withServer fun _ => rfl
  | serveCancel => exact h.withServer fun _ => rfl
  | lines limit => exact h.serveLines limit
  | linesWrite bytes => exact h.writeLines bytes
  | linesEnd => exact h.withLines fun _ => rfl
  | linesCancel => exact h.withLines fun _ => rfl
  | connect variant => exact h.connectWith _
  | through b job => exact h.begin .text false fun n _ _ h => h.requestThrough b job n
  | stopHost b => exact h.stopHost b

end

/-- A session at its start is like itself. -/
theorem create (config : PoolSettings) (engine : Engine) (drive : GateDrive) :
    Alike [] (Session.create config engine drive) (Session.create config engine drive) :=
  ⟨rfl, fun _ => nofun, fun _ => nofun, fun _ => nofun⟩

end Alike

end AvatarPool.Session
