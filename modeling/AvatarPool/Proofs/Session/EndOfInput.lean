import AvatarPool.Proofs.Session.Stages
import AvatarPool.Proofs.Wire.Pictures
import AvatarPool.Proofs.Wire.RoundTrip
import AvatarPool.Session.Steps

/-! # A lines host answers every request once

A text is piped into a lines host whose output accepts everything and whom nobody interrupts.  The
bytes of the text come in pieces, and between any two of them the host, its writer, its handlers and
the service go on in any order.  Once the host has ended, what has been written is one response for
every line that is a request, just as the engine answers it directly.

The invariant is `Stands`: the lines of the text are those that have been read followed by those
that are ahead, the host attends to the former, and the latter are what the bytes in its buffer and
the bytes to come will give.  A turn of the host moves lines from one part to the other; every other
step leaves the division as it is (`Stands.step`).  When the host has ended nothing is ahead, nobody
is at work and nothing is queued, so the accounts of the handlers are the theorem. -/

namespace AvatarPool

/-- **The answer that a line calls for**: none if it is no request, and else one under its id, with
what the engine yields for its job, or with the reason why it has none.  A picture goes out as the
standard text of its bytes, and a name as it stands. -/
def PureEngine.answer? (e : PureEngine) (line : String) : Option Response :=
  match Request.ofFrame line with
  | .error _ => none
  | .ok r =>
    match r.job with
    | .error why => some (.rejected r.id why.message)
    | .ok job =>
      match e.direct job with
      | .error why => some (.rejected r.id why.message)
      | .ok (.image picture) => some (.resolved r.id (Base64.standard picture.png))
      | .ok (.name text) => some (.resolved r.id text)

/-- A session with a lines host, and the bytes that are still to be written to it. -/
structure Piped where
  session : Session
  unread : List UInt8

/-- What happens in one go while a text is piped into a lines host. -/
inductive PipedMove where
  /-- The loop of the service, a worker, the gate or the clock goes on. -/
  | service (m : Move Session.Caller)
  /-- The host, its writer or one of its handlers takes a turn. -/
  | turn (t : Session.Turn)
  /-- So many further bytes come. -/
  | write (size : Nat)
  /-- The input ends. -/
  | close
  /-- The session gives its own handle back. -/
  | dropClient
  deriving DecidableEq, Repr

/-- Whether it is the turn of a lines host, of a writer or of a handler. -/
def Session.Turn.isOfHost : Session.Turn → Bool
  | .handler _ | .lines _ | .writer _ => true
  | _ => false

namespace Piped

open Session

/-- A lines host without a limit on its output, before any byte has come. -/
def start (config : PoolSettings) (engine : Session.Engine) (drive : GateDrive) (text : String) :
    Piped where
  session := ((create config engine drive).perform (.lines none)).1
  unread := Text.utf8 text

/-- **One move**, or none where it cannot be made: whoever takes a turn has been woken, the input
ends after the last byte, and the engine is pure, becomes ready without a failure, and nobody asks
for a stop but the host. -/
def move (e : PureEngine) (p : Piped) : PipedMove → Option Piped
  | .service m =>
    if m.isInner ∧ m.IsCalm e then
      (p.session.service.move m).map fun u => { p with session := p.session.setService u }
    else none
  | .turn t =>
    if t ∈ p.session.agenda ∧ t.isOfHost then
      some { p with session := { p.session with agenda := p.session.agenda.erase t }.run t }
    else none
  | .write size =>
    match p.session.perform (.linesWrite (p.unread.take size)) with
    | (s, .truth true) => some { session := s, unread := p.unread.drop size }
    | _ => none
  | .close => if p.unread = [] then some { p with session := (p.session.perform .linesEnd).1 } else none
  | .dropClient => some { p with session := (p.session.perform .dropClient).1 }

/-- **A run**: moves one after the other. -/
def play (e : PureEngine) (p : Piped) : List PipedMove → Option Piped
  | [] => some p
  -- A move that cannot be made ends the run without a result.
  | m :: τ => (p.move e m).bind fun q => q.play e τ

/-- The lines that are not blank. -/
def requests (lines : List String) : List String := lines.filter fun line => !Text.isBlank line

/-- The lines `ahead` of a lines host, in the bytes that it has and in those that will come. -/
structure Ahead (ahead : List String) (unread : List UInt8) (l : LinesHost) : Prop where
  reading : l.isReading → Lines.allFrom [] (l.input ++ unread) = ahead.map Text.utf8
  read : ¬ l.isReading → ahead = []
  unread : ¬ l.isReading ∨ l.atEnd → unread = []

/-- **Where a lines host stands** that reads a text: it has read some of its lines and answers them,
and the others are ahead of it. -/
def Stands (e : PureEngine) (text : String) (unread : List UInt8) (s : Session) : Prop :=
  ∃ before ahead live l, Text.lines text = before ++ ahead ∧
    Attends e (spare s.ownsHandle l.stage) (requests before) live l s ∧ Standing e live l s ∧
      Ahead ahead unread l

variable {e : PureEngine} {text : String} {p q : Piped} {s t : Session} {unread : List UInt8}

/-- A host that has read its whole input stands with nothing ahead of it. -/
theorem Stands.of_winding (h : Winding e (requests (Text.lines text)) s) : Stands e text [] s := by
  obtain ⟨live, l, host, hs, hread⟩ := h
  exact ⟨Text.lines text, [], live, l, by simp, host, hs,
    ⟨fun hreading => absurd hreading hread, fun _ => rfl, fun _ => rfl⟩⟩

/-! ## The turn of the host -/

/-- **A lines host reads the lines that have come.** -/
theorem stands_readLines {l₀ : LinesHost} {bytes : List UInt8} {before ahead : List String}
    {live : List Nat} {l : LinesHost}
    (host : Attends e (spare s.ownsHandle .reading) (requests before) live l s)
    (hsame : l.atEnd = l₀.atEnd) (hstage : l.stage = .reading) (hopen : ¬ l.writer.finished)
    (hagrees : s.service.Agrees e) (hdone : s.done = []) (hlines : Text.lines text = before ++ ahead)
    (hahead : Lines.allFrom [] (bytes ++ unread) = ahead.map Text.utf8)
    (hend : l₀.atEnd → unread = []) : Stands e text unread (s.readLines 0 l₀ bytes) := by
  -- By the recursion over the lines in the buffer, for any division of the lines of the text.
  generalize hi : 0 = i
  fun_induction Session.readLines s i l₀ bytes generalizing before ahead live l with
  -- The buffer holds no complete line, and the input goes on.
  | case1 s bytes hnext =>
      subst hi
      have hnoted := Alters.modifyLines (f := fun l => { l with input := bytes }) s fun _ => rfl
      have host' := host.alter hnoted (host.tended.neutral (.modifyLines s 0 _)) rfl
      have hreading : ({ l with input := bytes } : LinesHost).isReading := by
        simp [LinesHost.isReading, hstage]
      rw [← hstage] at host'
      refine ⟨before, ahead, live, { l with input := bytes }, hlines, host',
        .reads hstage hopen hagrees hdone, fun _ => hahead, fun hno => absurd hreading hno,
        fun hno => ?_⟩
      exact hno.elim (absurd hreading) fun hatEnd => hend (hsame ▸ hatEnd)
  -- The input has ended: nothing is ahead.
  | case2 s bytes hnext =>
      subst hi
      have hfinds := Lines.finds_next hahead hend
      rw [hnext] at hfinds
      obtain ⟨hcomplete, rfl⟩ : l₀.atEnd ∧ ahead = [] := by
        cases hfinds with
        | ended hcomplete heq => exact ⟨hcomplete, heq⟩
      have hnoted := Alters.modifyLines (f := fun l => { l with input := [] }) s fun _ => rfl
      have hread := host.alter hnoted (host.tended.neutral (.modifyLines s 0 _)) rfl
      rw [List.append_nil] at hlines
      rw [← hlines] at hread
      obtain rfl := hend hcomplete
      exact .of_winding (hread.answerLines hagrees hdone)
  -- The bytes come from a text, so every line of them is one.
  | case3 s bytes hnext =>
      have hfinds := Lines.finds_next hahead hend
      rw [hnext] at hfinds
      cases hfinds
  -- A blank line is read, and no handler gets it.
  | case4 s bytes line rest hnext hblank ih =>
      have hfinds := Lines.finds_next hahead hend
      rw [hnext] at hfinds
      cases hfinds with
      | @line _ _ ahead' heq hrest =>
          subst heq
          have hsame' : requests (before ++ [line]) = requests before := by
            simp [requests, List.filter_append, hblank]
          rw [← hsame'] at host
          exact ih host hsame hstage hopen hagrees hdone (by rw [hlines]; simp) hrest
  -- Any other line gets a handler.
  | case5 s bytes line rest hnext hblank ih =>
      subst hi
      have hfinds := Lines.finds_next hahead hend
      rw [hnext] at hfinds
      cases hfinds with
      | @line _ _ ahead' heq hrest =>
          subst heq
          have hmore : requests (before ++ [line]) = requests before ++ [line] := by
            simp [requests, List.filter_append, hblank]
          have hhandles : 0 < s.service.handles := Nat.lt_of_lt_of_le (spare_pos (by decide) _)
            (Nat.le_trans (Nat.le_add_right _ _) host.tended.handles)
          have halters := Alters.addHandler s line
          have hadded := host.addHandler (spare_pos (by decide) _) hopen line
          rw [← hmore, ← halters.owns] at hadded
          exact ih hadded hsame hstage hopen
            (agrees_addHandler hagrees host.tended.settled hhandles _ line)
            (halters.done.trans hdone) (by rw [hlines]; simp) hrest

/-- **A turn of the host.** -/
theorem Stands.runLines (h : Stands e text unread s) (i : Nat) :
    Stands e text unread (s.runLines i) := by
  have hstands := h
  obtain ⟨before, ahead, live, l, hlines, host, hs, hahead⟩ := h
  obtain ⟨l₀, hl₀, hplain⟩ := host.exists_host
  by_cases hi : i = 0
  · subst hi
    by_cases hread : l.isReading
    · subst hplain
      have hcall : l₀.call = 0 := host.call
      have hkept : ¬ s.isAbandoned 0 := host.not_isAbandoned 0
      have huncancelled : ¬ l₀.cancelled := host.uncancelled
      -- In its first turn it also wakes its writer; otherwise the two stages do the same.
      have hstages : l₀.stage = .starting ∨ l₀.stage = .reading := by
        have hreading : l₀.isReading := hread
        simpa [LinesHost.isReading] using hreading
      have hplain : l₀.plain.stage = l₀.stage := rfl
      have hbytes := hahead.reading hread
      have hend : l₀.atEnd → unread = [] := fun hatEnd => hahead.unread (.inr hatEnd)
      have hopen := hs.reading hread
      unfold Session.runLines
      rw [hl₀, List.getElem?_cons_zero]
      dsimp only
      rw [hcall, if_neg hkept, if_neg huncancelled, if_neg huncancelled]
      rcases hstages with heq | heq
      · have hagrees := hs.serving (by rw [hplain, heq]; rfl)
        have hdone := hs.done_eq_nil (by rw [hplain, heq]; decide)
        rw [hplain, heq] at host
        rw [heq, if_neg (by decide)]
        have hnoted := (Alters.modifyLines (f := fun l => { l with stage := .reading }) s
          fun _ => rfl).trans (.schedule _ (.writer 0))
        have hread := host.alter hnoted
          ((host.tended.neutral (.modifyLines s 0 _)).schedule (by simp)) rfl
        have hservice : ((s.modifyLines 0 fun l => { l with stage := .reading }).schedule
            (.writer 0)).service = s.service := (congrArg Session.service (body_schedule _ _) :)
        rw [← hnoted.owns] at hread
        exact stands_readLines hread rfl rfl hopen (hservice ▸ hagrees) (hnoted.done.trans hdone)
          hlines hbytes hend
      · have hagrees := hs.serving (by rw [hplain, heq]; rfl)
        have hdone := hs.done_eq_nil (by rw [hplain, heq]; decide)
        rw [hplain, heq] at host
        rw [heq, if_neg (by decide)]
        exact stands_readLines host rfl heq hopen hagrees hdone hlines hbytes hend
    -- It has read its whole input.
    · obtain rfl := hahead.read hread
      obtain rfl := hahead.unread (.inl hread)
      rw [List.append_nil] at hlines
      rw [← hlines] at host
      exact .of_winding (host.runLines hs hread)
  -- There is no other lines host.
  · obtain ⟨gone, hstaffed⟩ := host.staffed
    rw [hstaffed.runLines_of_ne hi]
    exact hstands

/-! ## The steps of others -/

/-- **A step of somebody else**, while the host stays at its stage. -/
theorem Stands.step (h : Stands e text unread s) {unread' : List UInt8}
    (hstep : ∀ fs live l, Attends e (spare s.ownsHandle l.stage) fs live l s → Standing e live l s →
      ∃ live' l', Attends e (spare t.ownsHandle l.stage) fs live' l' t ∧ l'.stage = l.stage ∧
        (l.stage.isServing → t.service.Agrees e) ∧ (live = [] → live' = []) ∧
          (l.writer.finished → l'.writer.finished) ∧
            (l'.writer.finished → l.writer.finished ∨ l.isSilent) ∧
              (l'.input ++ unread' = l.input ++ unread ∧ (l'.atEnd → l.atEnd ∨ unread' = [])))
    (hdone : t.done = s.done) (hunread : unread = [] → unread' = []) : Stands e text unread' t := by
  obtain ⟨before, ahead, live, l, hlines, host, hs, hahead⟩ := h
  obtain ⟨live', l', host', hstage, hagrees, hlive, hclosed, hopen, hinput, hatEnd⟩ :=
    hstep _ live l host hs
  rw [← hstage] at host'
  -- Whether it reads is a matter of its stage.
  have hsame : l'.isReading = l.isReading := by
    rw [LinesHost.isReading, LinesHost.isReading, hstage]
  refine ⟨before, ahead, live', l', hlines, host',
    hs.step hstage hagrees hlive hclosed hopen hdone, ?_⟩
  refine ⟨fun hreading => ?_, fun hread => hahead.read (hsame ▸ hread), fun hno => ?_⟩
  · rw [hinput]
    exact hahead.reading (hsame ▸ hreading)
  · rcases hno with hread | hend
    · exact hunread (hahead.unread (.inl (hsame ▸ hread)))
    · exact (hatEnd hend).elim (fun hend => hunread (hahead.unread (.inr hend))) id

theorem Stands.erase (h : Stands e text unread s) (u : Turn) :
    Stands e text unread { s with agenda := s.agenda.erase u } :=
  h.step (fun _ live l host hs =>
    ⟨live, l, host.erase u, rfl, hs.serving, id, id, .inl, rfl, .inl⟩) rfl id

/-- **A turn of the writer.** -/
theorem Stands.runWriter (h : Stands e text unread s) (i : Nat) :
    Stands e text unread (s.runWriter i) := by
  by_cases hi : i = 0
  · subst hi
    have hdone : (s.runWriter 0).done = s.done := by
      obtain ⟨_, _, _, _, _, host, -⟩ := h
      obtain ⟨_, _, _, _, _, _, hdone, -⟩ := host.runWriter
      exact hdone
    refine h.step (fun fs live l host hs => ?_) hdone id
    -- The writer leaves the stage and the input of its host alone.
    obtain ⟨l', host', hstill, hclosed, hopen, hservice, -, howns⟩ := host.runWriter
    obtain ⟨hstage, hinput, hatEnd⟩ : l'.stage = l.stage ∧ l'.input = l.input ∧
        l'.atEnd = l.atEnd := by
      simpa [LinesHost.still] using hstill
    rw [← howns] at host'
    exact ⟨live, l', host', hstage, hservice ▸ hs.serving, id, hclosed, hopen, by rw [hinput],
      fun hend => .inl (hatEnd ▸ hend)⟩
  · have hsame : s.runWriter i = s := by
      obtain ⟨_, _, _, _, _, host, -⟩ := h
      obtain ⟨gone, hstaffed⟩ := host.staffed
      exact hstaffed.runWriter_of_ne hi
    rw [hsame]
    exact h

/-- **A turn of a handler.** -/
theorem Stands.runHandler (h : Stands e text unread s) {n : Nat} (hn : .handler n ∈ s.agenda) :
    Stands e text unread ({ s with agenda := s.agenda.erase (.handler n) }.runHandler n) := by
  generalize ht : { s with agenda := s.agenda.erase (.handler n) }.runHandler n = t
  -- A handler that takes a turn has not replied, and so the service serves.
  have hlive : ∀ {base live l fs}, Attends e base fs live l s → live ≠ [] := by
    rintro base live l fs host rfl
    exact absurd (host.tended.orderly.turns n hn).1 List.not_mem_nil
  have hserves : ∀ {base live l fs}, Attends e base fs live l s → Standing e live l s →
      l.stage.isServing := fun host hs =>
    Decidable.by_contra fun hno => hlive host (hs.replied hno)
  have hdone : t.done = s.done := by
    obtain ⟨_, _, _, l, _, host, hs, -⟩ := h
    have hserving := hserves host hs
    obtain ⟨_, _, t', ht', -, -, -, -, hdone, -⟩ :=
      host.runHandler (LinesStage.spare_pos_of_isServing hserving _) (hs.serving hserving) hn
    obtain rfl := ht'.symm.trans ht
    exact hdone
  refine h.step (fun fs live l host hs => ?_) hdone id
  have hserving := hserves host hs
  obtain ⟨live', l', t', ht', host', hstill, hfinished, hagrees', -, howns⟩ :=
    host.runHandler (LinesStage.spare_pos_of_isServing hserving _) (hs.serving hserving) hn
  obtain rfl := ht'.symm.trans ht
  obtain ⟨hstage, hinput, hatEnd⟩ : l'.stage = l.stage ∧ l'.input = l.input ∧
      l'.atEnd = l.atEnd := by
    simpa [LinesHost.still] using hstill
  rw [← howns] at host'
  exact ⟨live', l', host', hstage, fun _ => hagrees', fun hnil => absurd hnil (hlive host),
    by rw [hfinished]; exact id, by rw [hfinished]; exact .inl, by rw [hinput],
    fun hend => .inl (hatEnd ▸ hend)⟩

/-- **A move of the service.** -/
theorem Stands.setService (h : Stands e text unread s) {m : Move Caller} (hm : m.isInner)
    (hcalm : m.IsCalm e) {u : Service Caller} (hmove : s.service.move m = some u) :
    Stands e text unread (s.setService u) := by
  have halters := Alters.setService s u
  refine h.step (fun fs live l host hs => ?_) halters.done id
  -- The service serves, or everyone has been answered and nobody can be told anything more.
  by_cases hserves : l.stage.isServing
  · obtain ⟨htended, hagrees⟩ := host.tended.move (hs.serving hserves)
      (LinesStage.spare_pos_of_isServing hserves _) hm hcalm hmove
    have host' := host.alter halters htended rfl
    rw [← halters.owns] at host'
    exact ⟨live, l, host', rfl, fun _ => hagrees, id, id, .inl, rfl, .inl⟩
  · obtain rfl := hs.replied hserves
    have host' := host.alter halters (host.tended.move_of_nil hm hmove) rfl
    rw [← halters.owns] at host'
    exact ⟨[], l, host', rfl, fun hyes => absurd hyes hserves, id, id, .inl, rfl, .inl⟩

/-! ## The input comes -/

/-- Bytes that are taken come behind those that wait to be read. -/
theorem eq_withLines_of_write {bytes : List UInt8}
    (h : s.perform (.linesWrite bytes) = (t, .truth true)) :
    t = s.withLines fun l => { l with input := l.input ++ bytes } := by
  have hstep : s.perform (.linesWrite bytes) = s.writeLines bytes := rfl
  rw [hstep, writeLines] at h
  split at h
  -- Bytes are refused by a host that is not there or reads no more.
  · split at h
    · cases h
    · split at h
      · cases h
      · exact (Prod.mk.inj h).1.symm
  · cases h

/-- **The input of the host changes**, and with it the bytes that are still to come. -/
theorem Stands.withLines (h : Stands e text unread s) {unread' : List UInt8}
    {f : LinesHost → LinesHost} (hf : ∀ l, (f l).plain = f l.plain)
    (hheard : ∀ l, (f l).serviceStopped = l.serviceStopped)
    (hstaff : ∀ l, (f l).staff = l.staff) (hstage : ∀ l, (f l).stage = l.stage)
    (hinput : ∀ l, (f l).input ++ unread' = l.input ++ unread)
    (hend : ∀ l, (f l).atEnd → l.atEnd ∨ unread' = []) (hunread : unread = [] → unread' = []) :
    Stands e text unread' (s.withLines f) := by
  obtain ⟨halters, hneutral, -⟩ : Within f s (s.withLines f) := by
    obtain ⟨_, _, _, _, _, host, -⟩ := h
    obtain ⟨l₀, hl₀, -⟩ := host.exists_host
    exact .withLines hl₀ hf hheard
  refine h.step (fun fs live l host hs => ?_) halters.done hunread
  have host' := host.alter halters (host.tended.neutral hneutral) (hstaff l)
  have hwriter : (f l).writer = l.writer := congrArg (fun x => x.2.2.2) (hstaff l)
  rw [← halters.owns] at host'
  exact ⟨live, f l, host', hstage l, hneutral.service ▸ hs.serving, id, by rw [hwriter]; exact id,
    by rw [hwriter]; exact .inl, hinput l, hend l⟩

/-- **Bytes come.** -/
theorem Stands.write (h : Stands e text unread s) (size : Nat)
    (ht : s.perform (.linesWrite (unread.take size)) = (t, .truth true)) :
    Stands e text (unread.drop size) t := by
  rw [eq_withLines_of_write ht]
  refine h.withLines (fun _ => rfl) (fun _ => rfl) (fun _ => rfl) (fun _ => rfl) (fun l => ?_)
    (fun _ => .inl) fun hnone => ?_
  -- What has been written and what is still to come are the bytes there were.
  · rw [List.append_assoc, List.take_append_drop]
  · rw [hnone, List.drop_nil]

/-- **The input ends.** -/
theorem Stands.close (h : Stands e text [] s) : Stands e text [] (s.perform .linesEnd).1 :=
  h.withLines (fun _ => rfl) (fun _ => rfl) (fun _ => rfl) (fun _ => rfl) (fun _ => rfl)
    (fun _ _ => .inr rfl) id

/-- **The session gives its own handle back.** -/
theorem Stands.dropClient (h : Stands e text unread s) :
    Stands e text unread (s.perform .dropClient).1 := by
  by_cases howns : s.ownsHandle
  · have hstep : (s.perform .dropClient).1 = { s with ownsHandle := false }.unshare :=
      congrArg Prod.fst (if_pos howns)
    have halters := Alters.setService { s with ownsHandle := false } s.service.unshare
    rw [hstep]
    refine h.step (fun fs live l host hs => ?_) halters.done id
    -- The handle is one of those that no handler holds.
    have hbase : spare s.ownsHandle l.stage =
        spare ({ s with ownsHandle := false } : Session).unshare.ownsHandle l.stage + 1 := by
      rw [show ({ s with ownsHandle := false } : Session).unshare.ownsHandle = false from halters.owns,
        howns, spare_true]
    have hhandles : 0 < s.service.handles := by
      have := host.tended.handles
      omega
    rw [hbase] at host
    have hkept : Attends e _ fs live l { s with ownsHandle := false } :=
      ⟨host.tended.neutral ⟨rfl, rfl, fun _ hs => hs.of_body rfl rfl⟩, host.host, host.call,
        host.uncancelled, host.limit, host.unbroken, host.callers, host.errands, host.counted,
        host.replies, host.closed⟩
    exact ⟨live, l, hkept.unshare, rfl,
      fun hserves => agrees_unshare (s := { s with ownsHandle := false }) (hs.serving hserves)
        host.tended.settled hhandles, id, id, .inl, rfl, .inl⟩
  -- The handle has been given back before.
  · have hsame : (s.perform .dropClient).1 = s := congrArg Prod.fst (if_neg howns)
    rw [hsame]
    exact h

/-! ## Runs -/

/-- **A lines host at its start**: nothing has been read, and the service has one handle more. -/
theorem staffed_start (L : Law) {config : PoolSettings} {engine : Session.Engine} {drive : GateDrive}
    (hs : s = ((create config engine drive).perform (.lines none)).1) :
    Staffed L (spare s.ownsHandle .starting) [] [] [] { call := 0 } s ∧ Notified s ∧
      s.service = (create config engine drive).service.share ∧ s.done = [] := by
  let call : Call := { turn := .lines 0 }
  let host : LinesHost := { call := 0 }
  have hjoined : Kept L 1 []
      { create config engine drive with calls := [call], linesHosts := [host] } :=
    (kept_create L config engine drive).neutral ⟨rfl, rfl, fun _ hs => hs.of_body rfl rfl⟩
  -- The host joins with a call of its own, takes a handle and is put on the agenda.
  have hbody : s =
      ({ create config engine drive with calls := [call], linesHosts := [host] }.share).schedule
        (.lines 0) := hs
  have hnoted := Within.schedule
    ({ create config engine drive with calls := [call], linesHosts := [host] }.share)
    (v := .lines 0) nofun
  rw [hbody]
  refine ⟨⟨?_, hnoted.alters.host host rfl, rfl, rfl, nofun,
    hnoted.alters.callers (by simp [call, share]), hnoted.alters.errands.trans rfl, rfl, .refl _, nofun,
    ?_, nofun⟩, ?_, hnoted.neutral.service, hnoted.alters.done⟩
  · rw [hnoted.alters.owns]
    exact (hjoined.share Nat.one_pos).schedule (u := .lines 0) nofun
  · rw [hnoted.alters.frames]
    exact .refl _
  · refine Notified.within (s := { create config engine drive with
      calls := [call], linesHosts := [host] }.share) (fun l hl hheard => ?_) hnoted
    rw [List.mem_singleton.mp hl] at hheard
    cases hheard

/-- **At the start** the whole text is ahead. -/
theorem stands_start (e : PureEngine) (config : PoolSettings) (engine : Session.Engine)
    (drive : GateDrive) (text : String) :
    Stands e text (Text.utf8 text) (start config engine drive text).session := by
  obtain ⟨hstaffed, -, hservice, hdone⟩ := staffed_start e.law
    (rfl : (start config engine drive text).session = _)
  refine ⟨[], Text.lines text, [], { call := 0 }, rfl, .of_staffed hstaffed nofun,
    ⟨⟨nofun, nofun⟩, fun _ => ?_, nofun, nofun, nofun, ?_⟩,
    ⟨fun _ => Lines.allFrom_utf8 text, nofun, ?_⟩⟩
  · rw [hservice]
    exact agrees_share (agrees_create e config engine drive)
      (kept_create e.law config engine drive).settled Nat.one_pos
  · rw [hdone]
    exact nofun
  · rintro (hno | hend)
    · exact absurd rfl hno
    · cases hend

/-- **A move keeps the host in its place.** -/
theorem Stands.move {m : PipedMove} (h : Stands e text p.unread p.session)
    (hm : p.move e m = some q) : Stands e text q.unread q.session := by
  -- One case for each kind of move.
  cases m with
  | service m =>
      obtain ⟨⟨hinner, hcalm⟩, hmove⟩ := Option.ite_none_right_eq_some.mp hm
      obtain ⟨u, hu, rfl⟩ := Option.map_eq_some_iff.mp hmove
      exact h.setService hinner hcalm hu
  | turn t =>
      obtain ⟨⟨hagenda, hhost⟩, rfl⟩ := Option.ite_some_none_eq_some.mp hm
      cases t with
      | handler n => exact h.runHandler hagenda
      | lines i => exact (h.erase _).runLines i
      | writer i => exact (h.erase _).runWriter i
      | _ => cases hhost
  | write size =>
      unfold Piped.move at hm
      dsimp only at hm
      split at hm
      · rename_i t ht
        cases hm
        exact h.write size ht
      · cases hm
  | close =>
      obtain ⟨hread, rfl⟩ := Option.ite_some_none_eq_some.mp hm
      rw [hread] at h
      have hclosed := h.close
      rw [← hread] at hclosed
      exact hclosed
  | dropClient =>
      cases hm
      exact h.dropClient

/-- **After any run** the host stands at some line of its text. -/
theorem Stands.play {τ : List PipedMove} (h : Stands e text p.unread p.session)
    (hplay : p.play e τ = some q) : Stands e text q.unread q.session := by
  -- By induction on the run: every move keeps the host in its place.
  induction τ generalizing p with
  | nil =>
      cases hplay
      exact h
  | cons m τ ih =>
      obtain ⟨p', hm, hrest⟩ := Option.bind_eq_some_iff.mp hplay
      exact ih (h.move hm) hrest

/-! ## What has been answered -/

/-- A picture of the engine carries the standard text of its bytes. -/
theorem base64_of_direct {job : Job} {picture : Image} (h : e.direct job = .ok (.image picture)) :
    picture.base64 = Base64.standard picture.png := by
  -- Only an invocation that has a value leads to a picture, and not one for a name.
  cases job with
  | image seed size =>
      have hdirect : (e.render seed size).outcome (.image size seed)
          (fun png => .image (.ofPng png)) = .ok (.image picture) := h
      cases hrender : e.render seed size with
      | value png =>
          rw [hrender] at hdirect
          cases hdirect
          exact (Image.base64_ofPng png).trans (Base64.encode_eq_standard png)
      | refused | broken =>
          rw [hrender] at hdirect
          cases hdirect
  | name seed =>
      have hdirect : (e.name seed).outcome (.name seed) .name = .ok (.image picture) := h
      cases hname : e.name seed with
      | value | refused | broken =>
          rw [hname] at hdirect
          cases hdirect

/-- **The reply of a handler is the answer that its line calls for.** -/
theorem reply?_eq_answer? (e : PureEngine) (line : String) : e.reply? line = e.answer? line := by
  unfold PureEngine.reply? PureEngine.answer? BridgeHost.readFrame
  -- Both read the frame in the same way; they differ in how a picture becomes a text.
  cases Request.ofFrame line with
  | error why => rfl
  | ok r =>
      dsimp only [BridgeHost.readRequest]
      cases r.job with
      | error why => rfl
      | ok job =>
          dsimp only [BridgeHost.respond]
          cases hdirect : e.direct job with
          | error why => rfl
          | ok artifact =>
              cases artifact with
              | name text => rfl
              | image picture =>
                  dsimp only [Artifact.payload]
                  rw [base64_of_direct hdirect]

theorem answer?_of_isBlank {line : String} (h : Text.isBlank line) : e.answer? line = none := by
  obtain ⟨why, hwhy⟩ := Request.ofFrame_of_isBlank h
  rw [PureEngine.answer?, hwhy]

/-- Blank lines are not handed out, and would have no answer. -/
theorem filterMap_requests (e : PureEngine) (lines : List String) :
    (requests lines).filterMap e.frame? =
      lines.filterMap fun line => (e.answer? line).map Response.frame := by
  unfold requests PureEngine.frame?
  rw [List.filterMap_filter]
  refine List.filterMap_congr fun line _ => ?_
  rw [reply?_eq_answer?]
  split
  · rfl
  · rename_i hblank
    rw [answer?_of_isBlank (by simpa using hblank)]
    rfl

/-- The failures that a request itself leads to: it makes no sense, or the engine has no result. -/
inductive OwnFailure : Failure → Prop
  | engine (message : String) : OwnFailure (.engine message)
  | enginePanicked (fingerprint : String) : OwnFailure (.enginePanicked fingerprint)
  | invalidRequest (reason : String) : OwnFailure (.invalidRequest reason)

/-- A request that names no job is refused for its own sake. -/
theorem ownFailure_of_job {r : Request} {why : Failure} (h : r.job = .error why) :
    OwnFailure why := by
  unfold Request.job at h
  -- Its kind, its seed and its size are checked one after the other.
  split at h
  · cases h
    exact .invalidRequest _
  · split at h
    · cases h
    · split at h
      · cases h
        exact .invalidRequest _
      · split at h <;> cases h
        exact .invalidRequest _

/-- An invocation without a value leads to a failure of the engine. -/
theorem ownFailure_of_outcome {α : Type} {key : Fingerprint} {make : α → Artifact} {y : Yield α}
    {why : Failure} (h : y.outcome key make = .error why) : OwnFailure why := by
  cases y with
  | value a => cases h
  | refused message =>
      cases h
      exact .engine message
  | broken =>
      cases h
      exact .enginePanicked _

/-- A job done directly fails for the same reasons. -/
theorem ownFailure_of_direct {job : Job} {why : Failure} (h : e.direct job = .error why) :
    OwnFailure why := by
  cases job with
  | image seed size => exact ownFailure_of_outcome (y := e.render seed size) h
  | name seed => exact ownFailure_of_outcome (y := e.name seed) h

/-- So a refusal that a line calls for is worded like one of these failures. -/
theorem ownFailure_of_answer? {line : String} {id : RequestId} {reason : String}
    (h : e.answer? line = some (.rejected id reason)) :
    ∃ why, OwnFailure why ∧ reason = why.message := by
  unfold PureEngine.answer? at h
  split at h
  · cases h
  · split at h
    · rename_i hjob
      cases h
      exact ⟨_, ownFailure_of_job hjob, rfl⟩
    · split at h <;> cases h
      rename_i hdirect
      exact ⟨_, ownFailure_of_direct hdirect, rfl⟩

/-- No wording of theirs is that of a stop. -/
theorem OwnFailure.message_ne {why : Failure} (h : OwnFailure why) :
    why.message ≠ Failure.shuttingDown.message := by
  -- The wordings of these failures begin with another letter than that of a stop.
  have hhead : ∀ {head rest : String}, head.toList.head? ≠ some 'S' → head.toList ≠ [] →
      head ++ rest ≠ Failure.shuttingDown.message := by
    intro head rest hne hnil heq
    have hfirst := congrArg (fun text => text.toList.head?) heq
    rw [String.toList_append, List.head?_append_of_ne_nil _ hnil] at hfirst
    exact hne (hfirst.trans (by decide))
  cases h <;> exact hhead (by decide) (by decide)

/-- **A lines host answers every request of its input once.**  Once it has ended, after any run, it
has ended well and read the whole text, and what it has written is the answers to the lines of the
text, in some order: one for each line that is a request, and none for the others.  Each answer is
one line of the output, and none is about a stop of the service. -/
theorem every_line_answered_once {config : PoolSettings} {engine : Session.Engine}
    {drive : GateDrive} {τ : List PipedMove} {a : Answer}
    (h : (start config engine drive text).play e τ = some p) (ha : (0, a) ∈ p.session.done) :
    a = .stopped ∧ p.unread = [] ∧
      p.session.frames.Perm
        ((Text.lines text).filterMap fun line => (e.answer? line).map Response.frame) ∧
      ∀ frame ∈ p.session.frames, '\n' ∉ frame.toList ∧
        ∀ id, frame ≠ (Response.rejected id Failure.shuttingDown.message).frame := by
  -- The invariant at the end of the run says everything: the host has ended, so nothing is left.
  obtain ⟨before, ahead, live, l, hlines, host, hs, hahead⟩ :=
    (stands_start e config engine drive text).play h
  obtain ⟨hstopped, hended⟩ := hs.done _ ha
  have hread : ¬ l.isReading := by simp [LinesHost.isReading, hended]
  obtain rfl := hahead.read hread
  obtain ⟨rfl, hqueue⟩ := host.closed (hs.ended hended)
  have hperm := host.replies
  rw [hqueue, filterMap_requests, due, List.filterMap_nil, List.append_nil, List.append_nil] at hperm
  rw [List.append_nil] at hlines
  rw [← hlines] at hperm
  -- Every frame written is the answer to some line.
  refine ⟨(Prod.mk.inj hstopped).2, hahead.unread (.inl hread), hperm, fun frame hframe => ?_⟩
  obtain ⟨line, -, hline⟩ := List.mem_filterMap.mp (hperm.mem_iff.mp hframe)
  obtain ⟨r, hr, rfl⟩ := Option.map_eq_some_iff.mp hline
  refine ⟨fun hfeed => absurd (r.isShown_frame _ hfeed) (by decide), fun id heq => ?_⟩
  obtain rfl := Response.frame_injective heq
  obtain ⟨why, hwhy, hreason⟩ := ownFailure_of_answer? hr
  exact hwhy.message_ne hreason.symm

/-- A robot of everyone's own, and four bytes for every picture. -/
def robots : PureEngine where
  render _ _ := .value [0x89, 0x50, 0x4e, 0x47]
  name seed := .value ("Robot " ++ seed)

/-- The same request twice, a blank line between them, then one for a picture, and at the end a line
that is no request and has no line feed. -/
def twiceAsked : String :=
  (Request.ofJob (.counter 1) (.name "x")).frame ++ "\n \r\n" ++
    (Request.ofJob (.counter 1) (.name "x")).frame ++ "\n" ++
      (Request.ofJob (.text "p") (.image "x" .small)).frame ++ "\nno json"

/-- The second request joins the first, and the picture waits in the queue; the worker ends both tasks
after the host has read all. -/
def twiceAskedRun : List PipedMove :=
  [.write 1000, .close, .turn (.lines 0), .service .begin, .turn (.handler 0), .turn (.handler 1),
    .turn (.handler 2), .turn (.handler 3), .service .command, .service .command, .service .command,
    .service (.take 0), .service (.finish 0 (.ofJob (.name "x")) (.name "Robot x")),
    .service (.report ⟨0, .name "x", .ok (.name "Robot x")⟩), .turn (.handler 1),
    .service (.take 0), .turn (.handler 0),
    .service (.finish 0 (.ofJob (.image "x" .small)) (.image [0x89, 0x50, 0x4e, 0x47])),
    .service (.report ⟨0, .image .small "x", .ok (.image (.ofPng [0x89, 0x50, 0x4e, 0x47]))⟩),
    .turn (.handler 2), .turn (.lines 0), .service .command, .service .leave, .service .dismiss,
    .service .dismiss, .service (.take 0), .service .farewell, .turn (.lines 0), .turn (.writer 0),
    .turn (.lines 0)]

/-- The answers to the three requests. -/
def threeAnswers : List String :=
  [(Response.resolved (.counter 1) "Robot x").frame, (Response.resolved (.counter 1) "Robot x").frame,
    (Response.resolved (.text "p") "iVBORw==").frame]

set_option maxRecDepth 100000 in
theorem every_line_answered_once_joined :
    ∃ p : Piped, (start { poolSize := 1 } .builtIn .opened twiceAsked).play robots twiceAskedRun =
        some p ∧ (0, .stopped) ∈ p.session.done ∧ p.session.frames.Perm threeAnswers := by
  have hplay : ((start { poolSize := 1 } .builtIn .opened twiceAsked).play robots
      twiceAskedRun).any fun p => p.session.done.map Prod.fst = [0] := by
    decide +kernel
  -- What the three lines call for is computed from the text alone.
  have hanswers : ((Text.lines twiceAsked).filterMap fun line =>
      (robots.answer? line).map Response.frame) = threeAnswers := by
    decide +kernel
  obtain ⟨p, hp, hdone⟩ := (Option.any_eq_true _ _).mp hplay
  obtain ⟨⟨_, a⟩, hmem, rfl⟩ := List.mem_map.mp (of_decide_eq_true hdone ▸ List.mem_singleton_self 0)
  obtain ⟨rfl, -, hframes, -⟩ := every_line_answered_once hp hmem
  exact ⟨p, hp, hmem, hanswers ▸ hframes⟩

end Piped

end AvatarPool
