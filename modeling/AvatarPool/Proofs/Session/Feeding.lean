import AvatarPool.Proofs.Session.Courses
import AvatarPool.Proofs.Session.EndOfInput

/-! # Bytes are fed to a lines host

Any bytes are written to a lines host whose output accepts everything.  They come in pieces, and
between any two of them the host, its writer, its handlers and the service go on in any order; the
engine does what it likes, and the host may be told to stop at any time.  `Serves` says which lines
the host has accepted so far, and how it stands with the others.

A host that still reads is described by the bytes: the lines of the whole input are those accepted
followed by those that its buffer and the bytes to come will give (`Reads.reading`).  This is kept
however the bytes are cut into pieces, since the lines of a text are found from left to right.  Once
the host has halted, the list of what it has accepted stays as it is; `Advances` says both for one
step, and `Serves.feedAll` for a run. -/

namespace AvatarPool

/-- What happens in one go while bytes are fed to a lines host. -/
inductive FeedMove where
  /-- The loop of the service, a worker, the gate or the clock goes on. -/
  | service (m : Move Session.Caller)
  /-- The host, its writer or one of its handlers takes a turn. -/
  | turn (t : Session.Turn)
  /-- So many further bytes come. -/
  | write (size : Nat)
  /-- The input ends. -/
  | close
  /-- The host is told to stop. -/
  | cancel
  /-- The session gives its own handle back. -/
  | dropClient
  deriving DecidableEq, Repr

/-- Whether a move of the service obeys the law, which says what the engine and the gate may do; all
other moves obey any law. -/
def FeedMove.Obeys (L : Law) : FeedMove → Prop
  | .service m => m.Obeys L
  | _ => True

namespace Piped

open Session

/-- A lines host without a limit on its output, before any byte has come. -/
def ofBytes (config : PoolSettings) (engine : Session.Engine) (drive : GateDrive)
    (input : List UInt8) : Piped where
  session := ((create config engine drive).perform (.lines none)).1
  unread := input

/-- **One move**, or none where it cannot be made: whoever takes a turn has been woken, the input ends
after the last byte, and nobody asks for a stop but the host. -/
def feed (p : Piped) : FeedMove → Option Piped
  | .service m =>
    if m.isInner then
      (p.session.service.move m).map fun u => { p with session := p.session.setService u }
    else none
  | .turn t =>
    if t ∈ p.session.agenda ∧ t.isOfHost then
      some { p with session := { p.session with agenda := p.session.agenda.erase t }.run t }
    else none
  -- The next bytes are written, if the host still takes input.
  | .write size =>
    match p.session.perform (.linesWrite (p.unread.take size)) with
    | (s, .truth true) => some { session := s, unread := p.unread.drop size }
    | _ => none
  | .close =>
    if p.unread = [] then some { p with session := (p.session.perform .linesEnd).1 } else none
  | .cancel => some { p with session := (p.session.perform .linesCancel).1 }
  | .dropClient => some { p with session := (p.session.perform .dropClient).1 }

/-- **A run**: moves one after the other. -/
def feedAll (p : Piped) : List FeedMove → Option Piped
  | [] => some p
  | m :: τ => (p.feed m).bind fun q => q.feedAll τ

/-! ## The lines of the input -/

/-- **How a lines host stands with its input**, of which it has accepted some lines: the others are
still ahead, or it has read all, or it leaves the rest alone, because it has been interrupted or
because the next line is no text.  The index is why it has halted, if it has. -/
inductive Reads (input : List UInt8) (accepted : List String) (unread : List UInt8)
    (l : LinesHost) : Option Halt → Prop
  | reading (h : Lines.allFrom [] input =
        accepted.map Text.utf8 ++ Lines.allFrom [] (l.input ++ unread))
      (hend : l.atEnd → unread = []) : Reads input accepted unread l none
  | endOfInput (h : Lines.allFrom [] input = accepted.map Text.utf8) (hend : unread = []) :
      Reads input accepted unread l (some .endOfInput)
  | interrupted {rest : List (List UInt8)}
      (h : Lines.allFrom [] input = accepted.map Text.utf8 ++ rest) :
      Reads input accepted unread l (some .interrupted)
  | unreadable {bad : List UInt8} {rest : List (List UInt8)}
      (h : Lines.allFrom [] input = accepted.map Text.utf8 ++ bad :: rest)
      (hbad : Text.ofUtf8? bad = none) : Reads input accepted unread l (some .unreadable)

/-- **Where a lines host stands** that has accepted some lines of its input. -/
def Serves (L : Law) (input : List UInt8) (accepted : List String) (why : Option Halt)
    (unread : List UInt8) (s : Session) : Prop :=
  ∃ gone live l, Manned L (spare s.ownsHandle l.stage) (requests accepted) gone live l s ∧
    Course live l s why ∧ Reads input accepted unread l why

variable {L : Law} {input unread : List UInt8} {accepted : List String} {why : Option Halt}
  {p q : Piped} {s t : Session}

/-- A host that reads no further serves those that it has accepted. -/
theorem Serves.of_halted {halt : Halt} (h : Halted L (requests accepted) halt s)
    (hr : ∀ l, Reads input accepted unread l (some halt)) :
    Serves L input accepted (some halt) unread s := by
  obtain ⟨gone, live, l, hmanned, hcourse⟩ := h
  exact ⟨gone, live, l, hmanned, hcourse, hr l⟩

/-- What a host that reads further has accepted stays accepted, and more may come. -/
def Advances (L : Law) (input : List UInt8) (accepted : List String) (why : Option Halt)
    (unread : List UInt8) (t : Session) : Prop :=
  ∃ accepted' why', Serves L input accepted' why' unread t ∧
    (why ≠ none → accepted' = accepted ∧ why' = why)

theorem Serves.advances (h : Serves L input accepted why unread s) :
    Advances L input accepted why unread s := ⟨accepted, why, h, fun _ => ⟨rfl, rfl⟩⟩

/-! ## The turn of the host -/

/-- **A lines host reads the lines that have come.** -/
theorem serves_readLines {l₀ l : LinesHost} {bytes : List UInt8}
    {gone : List (Nat × Option Response)} {live : List Nat}
    (h : Manned L (spare s.ownsHandle .reading) (requests accepted) gone live l s)
    (hstop : L.AllowsStop) (hcall : l₀.call = 0) (hsame : l.atEnd = l₀.atEnd)
    (hstage : l.stage = .reading) (hopen : ¬ l.writer.finished) (hunasked : Unasked s)
    (hdone : s.done = [])
    (hread : Lines.allFrom [] input =
      accepted.map Text.utf8 ++ Lines.allFrom [] (bytes ++ unread))
    (hend : l₀.atEnd → unread = []) :
    ∃ accepted' why', Serves L input accepted' why' unread (s.readLines 0 l₀ bytes) := by
  -- By the recursion over the lines in the buffer; accepted lines become a prefix of the input.
  generalize hi : 0 = i
  fun_induction Session.readLines s i l₀ bytes generalizing accepted gone live l with
  -- No complete line is left, and the input goes on: the host waits.
  | case1 s bytes hnext =>
      subst hi
      have hnoted := Within.modifyLines (f := fun l => { l with input := bytes }) s (fun _ => rfl)
        fun _ => rfl
      have hwaits := h.step hnoted rfl rfl rfl
      have hreading : ({ l with input := bytes } : LinesHost).isReading := by
        simp [LinesHost.isReading, hstage]
      rw [← hstage] at hwaits
      exact ⟨accepted, none, gone, live, { l with input := bytes }, hwaits,
        .reads hreading hopen hunasked hdone, .reading hread fun hatEnd => hend (hsame ▸ hatEnd)⟩
  -- The input has ended, and nothing is left: the host lets its handlers finish.
  | case2 s bytes hnext =>
      subst hi
      have hmeets := Lines.meets_next bytes hend
      rw [hnext] at hmeets
      obtain ⟨hcomplete, hnil⟩ : l₀.atEnd ∧ Lines.allFrom [] (bytes ++ unread) = [] := by
        cases hmeets with
        | ended hcomplete hnil => exact ⟨hcomplete, hnil⟩
      have hnoted := Within.modifyLines (f := fun l => { l with input := [] }) s (fun _ => rfl)
        fun _ => rfl
      have hclosed := h.step hnoted rfl rfl rfl
      rw [hnil, List.append_nil] at hread
      have hhalted : Halted L (requests accepted) .endOfInput
          ((s.modifyLines 0 fun l => { l with input := [] }).answerLines 0) :=
        hclosed.answerLines hstop hunasked hdone
      exact ⟨accepted, _, .of_halted hhalted fun _ => .endOfInput hread (hend hcomplete)⟩
  -- The next line is no text: the host gives up.
  | case3 s bytes hnext =>
      subst hi
      have hmeets := Lines.meets_next bytes hend
      rw [hnext] at hmeets
      cases hmeets with
      | invalid hbad hnone =>
          rw [hbad] at hread
          rw [hcall]
          exact ⟨accepted, _, .of_halted (h.fail hstop hunasked hdone) fun _ =>
            .unreadable hread hnone⟩
  -- A blank line is accepted without a handler.
  | case4 s bytes line rest hnext hblank ih =>
      have hmeets := Lines.meets_next bytes hend
      rw [hnext] at hmeets
      cases hmeets with
      | line hnextLine =>
          have hsame' : requests (accepted ++ [line]) = requests accepted := by
            simp [requests, List.filter_append, hblank]
          rw [← hsame'] at h
          refine ih h hsame hstage hopen hunasked hdone ?_
          rw [hread, hnextLine]
          simp
  -- Any other line gets a handler.
  | case5 s bytes line rest hnext hblank ih =>
      subst hi
      have hmeets := Lines.meets_next bytes hend
      rw [hnext] at hmeets
      cases hmeets with
      | line hnextLine =>
          have hmore : requests (accepted ++ [line]) = requests accepted ++ [line] := by
            simp [requests, List.filter_append, hblank]
          obtain ⟨hadded, hvisits⟩ := h.addHandler hstop (spare_pos (by decide) _) hopen line
          rw [← hmore, ← hvisits.owns] at hadded
          refine ih hadded hsame hstage hopen (hvisits.unasked hunasked)
            (hvisits.done.trans hdone) ?_
          rw [hread, hnextLine]
          simp

/-- A host that reads takes its turn: it stops if it has been told to, and else reads what has come. -/
theorem Serves.runLines_eq (h : Serves L input accepted none unread s) :
    ∃ (t : Session) (gone : List (Nat × Option Response)) (live : List Nat) (l₀ l : LinesHost),
      Manned L (spare t.ownsHandle .reading) (requests accepted) gone live l t ∧
      s.linesHosts = [l₀] ∧ l₀.call = 0 ∧ l.atEnd = l₀.atEnd ∧ l.stage = .reading ∧
      ¬ l.writer.finished ∧ Unasked t ∧ t.done = [] ∧
      Lines.allFrom [] input = accepted.map Text.utf8 ++ Lines.allFrom [] (l₀.input ++ unread) ∧
      (l₀.atEnd → unread = []) ∧
      s.runLines 0 = if l₀.cancelled then t.stopFor 0 true else t.readLines 0 l₀ l₀.input := by
  obtain ⟨gone, live, l, host, hcourse, hreads⟩ := h
  obtain ⟨l₀, hl₀, rfl⟩ := host.exists_host
  -- It has been woken for the first time, or it has been reading.
  cases hcourse with
  | reads hreading hopen hunasked hdone =>
    cases hreads with
    | reading hread hend =>
      have hcall : l₀.call = 0 := host.call
      have hkept : ¬ s.isAbandoned 0 := host.not_isAbandoned 0
      have hplain : l₀.plain.stage = l₀.stage := rfl
      have hstages : l₀.stage = .starting ∨ l₀.stage = .reading := by
        have hreading : l₀.isReading := hreading
        simpa [LinesHost.isReading] using hreading
      unfold Session.runLines
      rw [hl₀, List.getElem?_cons_zero]
      dsimp only
      rw [hcall, if_neg hkept]
      -- In its first turn it also wakes its writer.
      rcases hstages with heq | heq
      · have hnoted := (Within.modifyLines (f := fun l => { l with stage := .reading }) s
          (fun _ => rfl) fun _ => rfl).trans (.schedule _ (v := .writer 0) fun n hn => by cases hn)
        rw [hplain, heq] at host
        have hreader := host.step hnoted rfl rfl rfl
        have hkept : Unasked ((s.modifyLines 0 fun l => { l with stage := .reading }).schedule
            (.writer 0)) := by
          unfold Unasked
          rw [hnoted.neutral.service]
          exact hunasked
        rw [← hnoted.alters.owns] at hreader
        rw [heq, if_neg (by decide)]
        exact ⟨_, gone, live, l₀, _, hreader, rfl, hcall, rfl, rfl, hopen, hkept,
          hnoted.alters.done.trans hdone, hread, hend, rfl⟩
      · rw [hplain, heq] at host
        rw [heq, if_neg (by decide)]
        exact ⟨s, gone, live, l₀, l₀.plain, host, rfl, hcall, rfl, heq, hopen, hunasked, hdone,
          hread, hend, rfl⟩

/-- **A host that reads and has been told to stop reads no further.** -/
theorem Serves.runLines_of_cancelled (h : Serves L input accepted none unread s)
    (hstop : L.AllowsStop) (hcancelled : ∃ l ∈ s.linesHosts, l.cancelled) :
    Serves L input accepted (some .interrupted) unread (s.runLines 0) := by
  obtain ⟨t, gone, live, l₀, l, hmanned, hl₀, -, -, -, -, -, hdone, hread, -, heq⟩ := h.runLines_eq
  -- There is one lines host only, which is therefore the one told to stop.
  obtain ⟨l', hmem, hcancelled⟩ := hcancelled
  rw [hl₀, List.mem_singleton] at hmem
  subst hmem
  rw [heq, if_pos hcancelled]
  exact .of_halted (hmanned.stopForInterruption hstop hdone) fun _ => .interrupted hread

/-- **A turn of the host.** -/
theorem Serves.runLines (h : Serves L input accepted why unread s) (hstop : L.AllowsStop) (i : Nat) :
    Advances L input accepted why unread (s.runLines i) := by
  have hserves := h
  -- The session has no other lines host, so the turn of another one is none.
  by_cases hi : i = 0
  · subst hi
    cases why with
    | none =>
        obtain ⟨t, gone, live, l₀, l, hmanned, -, hcall, hsame, hstage, hopen, hunasked, hdone,
          hread, hend, heq⟩ := h.runLines_eq
        rw [heq]
        split
        -- It has been told to stop.
        · have hbroken := hmanned.stopForInterruption hstop hdone
          exact ⟨accepted, some .interrupted, .of_halted hbroken fun _ => .interrupted hread,
            fun hno => absurd rfl hno⟩
        -- It reads what has come.
        · obtain ⟨accepted', why', hserves⟩ := serves_readLines hmanned hstop hcall hsame hstage
            hopen hunasked hdone hread hend
          exact ⟨accepted', why', hserves, fun hno => absurd rfl hno⟩
    -- It has halted: what it does further does not concern the input.
    | some halt =>
        obtain ⟨gone, live, l, host, hcourse, hreads⟩ := h
        have hanyone : ∀ l', Reads input accepted unread l' (some halt) := by
          intro l'
          cases hreads with
          | endOfInput hall hend => exact .endOfInput hall hend
          | interrupted hall => exact .interrupted hall
          | unreadable hall hbad => exact .unreadable hall hbad
        exact ⟨accepted, some halt, .of_halted (host.runLines hcourse hstop) hanyone,
          fun _ => ⟨rfl, rfl⟩⟩
  · have hsame : s.runLines i = s := by
      obtain ⟨_, _, _, host, -⟩ := h
      exact host.runLines_of_ne hi
    rw [hsame]
    exact hserves.advances

/-! ## The steps of others -/

/-- **A step of somebody else**, while the host stays at its stage: it is enough to say what the
step does to the host, whatever the handlers. -/
theorem Serves.step (h : Serves L input accepted why unread s) {unread' : List UInt8}
    (hstep : ∀ gone live l, Manned L (spare s.ownsHandle l.stage) (requests accepted) gone live l s →
      ∃ gone' live' l', Manned L (spare t.ownsHandle l.stage) (requests accepted) gone' live' l' t ∧
        Spares live live' l l' s t ∧ l'.input ++ unread' = l.input ++ unread ∧
          (l'.atEnd → l.atEnd ∨ unread' = []))
    (hunread : unread = [] → unread' = []) : Serves L input accepted why unread' t := by
  obtain ⟨gone, live, l, host, hcourse, hreads⟩ := h
  obtain ⟨gone', live', l', host', hspares, hinput, hatEnd⟩ := hstep gone live l host
  rw [← hspares.stage] at host'
  refine ⟨gone', live', l', host', hcourse.step hspares, ?_⟩
  -- Only a host that still reads has anything to say about the bytes.
  cases hreads with
  | reading hread hend =>
      refine .reading (by rw [hinput]; exact hread) fun hends => ?_
      exact (hatEnd hends).elim (fun hold => hunread (hend hold)) id
  | endOfInput hall hend => exact .endOfInput hall (hunread hend)
  | interrupted hall => exact .interrupted hall
  | unreadable hall hbad => exact .unreadable hall hbad

theorem Serves.erase (h : Serves L input accepted why unread s) (u : Turn) :
    Serves L input accepted why unread { s with agenda := s.agenda.erase u } :=
  h.step (fun gone live l host => ⟨gone, live, l, host.step (.erase s u) rfl rfl rfl,
    ⟨rfl, id, id, id, id, .inl, rfl⟩, rfl, .inl⟩) id

/-- **A turn of the writer.** -/
theorem Serves.runWriter (h : Serves L input accepted why unread s) (i : Nat) :
    Serves L input accepted why unread (s.runWriter i) := by
  by_cases hi : i = 0
  · subst hi
    refine h.step (fun gone live l host => ?_) id
    -- The writer changes the output of its host, and nothing that `Spares` speaks of.
    obtain ⟨l', host', hstill, -, hclosed, hopen, hservice, hdone, howns, hnotified⟩ :=
      host.runWriter
    obtain ⟨hstage, hinput, hatEnd⟩ : l'.stage = l.stage ∧ l'.input = l.input ∧
        l'.atEnd = l.atEnd := by
      simpa [LinesHost.still] using hstill
    rw [← howns] at host'
    have hmanned : Manned L (spare (s.runWriter 0).ownsHandle l.stage) (requests accepted) gone live
        l' (s.runWriter 0) := ⟨host', hservice ▸ host.lawful, hnotified host.notified⟩
    have hspares : Spares live live l l' s (s.runWriter 0) :=
      ⟨hstage, hservice ▸ id, fun hunasked => by unfold Unasked; rw [hservice]; exact hunasked, id,
        hclosed, hopen, hdone⟩
    exact ⟨gone, live, l', hmanned, hspares, by rw [hinput], fun hend => .inl (hatEnd ▸ hend)⟩
  · have hsame : s.runWriter i = s := by
      obtain ⟨_, _, _, host, -⟩ := h
      exact host.runWriter_of_ne hi
    rw [hsame]
    exact h

/-- **A turn of a handler.** -/
theorem Serves.runHandler (h : Serves L input accepted why unread s) (hstop : L.AllowsStop) {n : Nat}
    (hn : .handler n ∈ s.agenda) :
    Serves L input accepted why unread
      ({ s with agenda := s.agenda.erase (.handler n) }.runHandler n) := by
  refine h.step (fun gone live l host => ?_) id
  -- The handler may be gone afterwards; the host stays where it is.
  obtain ⟨gone', live', l', host', hvisits, hstill, -, hfinished, hlive⟩ :=
    host.runHandler (fun _ => hstop) hn
  generalize { s with agenda := s.agenda.erase (.handler n) }.runHandler n = t at host' hvisits ⊢
  obtain ⟨hstage, hinput, hatEnd⟩ : l'.stage = l.stage ∧ l'.input = l.input ∧
      l'.atEnd = l.atEnd := by
    simpa [LinesHost.still] using hstill
  have hmanned := host.of_visits hstop host' hvisits
  rw [← hvisits.owns] at hmanned
  have hspares : Spares live live' l l' s t := by
    refine ⟨hstage, hvisits.hasEnded, hvisits.unasked, fun hnil => absurd hnil hlive, ?_, ?_,
      hvisits.done⟩
    · rw [hfinished]
      exact id
    · rw [hfinished]
      exact .inl
  exact ⟨gone', live', l', hmanned, hspares, by rw [hinput], fun hend => .inl (hatEnd ▸ hend)⟩

/-- **A move of the service.** -/
theorem Serves.setService (h : Serves L input accepted why unread s) (hstop : L.AllowsStop)
    {m : Move Caller} (hm : m.isInner) (hobeys : m.Obeys L) {v : Service Caller}
    (hmove : s.service.move m = some v) :
    Serves L input accepted why unread (s.setService v) := by
  have halters := Alters.setService s v
  -- The host asks for the stop in its own turn, and in no move of the service.
  have hstopper : m.stopper? ≠ some (.lines 0) := by
    cases m with
    | request | stop => cases hm
    | _ => nofun
  refine h.step (fun gone live l host => ?_) id
  have hhandles : spare s.ownsHandle l.stage + live.length ≤ v.handles := by
    rw [Service.handles_of_isInner hm hmove]
    exact host.kept.handles
  have host' := host.setService hstop hmove hobeys (Move.request?_of_isInner hm) hhandles
  rw [← halters.owns] at host'
  have hspares : Spares live live l l s (s.setService v) :=
    ⟨rfl, hasEnded_setService hmove,
      fun hunasked => hunasked.of_move hmove hstopper (service_setService s v), id, id, .inl,
      halters.done⟩
  exact ⟨gone, live, l, host', hspares, rfl, .inl⟩

/-! ## The input comes -/

/-- **The input of the host changes**, and with it the bytes that are still to come: what has been
written and what has not make up the same bytes as before. -/
theorem Serves.withLines (h : Serves L input accepted why unread s) {unread' : List UInt8}
    {f : LinesHost → LinesHost} (hf : ∀ l, (f l).plain = f l.plain)
    (hkept : ∀ l, (f l).stage = l.stage ∧ (f l).call = l.call ∧ (f l).inFlight = l.inFlight ∧
      (f l).writer = l.writer ∧ (f l).serviceStopped = l.serviceStopped)
    (hinput : ∀ l, (f l).input ++ unread' = l.input ++ unread)
    (hend : ∀ l, (f l).atEnd → l.atEnd ∨ unread' = []) (hunread : unread = [] → unread' = []) :
    Serves L input accepted why unread' (s.withLines f) := by
  have hwithin : Within f s (s.withLines f) := by
    obtain ⟨_, _, _, host, -⟩ := h
    obtain ⟨l₀, hl₀, -⟩ := host.exists_host
    exact .withLines hl₀ hf fun l => (hkept l).2.2.2.2
  refine h.step (fun gone live l host => ?_) hunread
  obtain ⟨hstage, hcall, hcount, hwriter, -⟩ := hkept l
  have host' := host.step hwithin hcall hcount hwriter
  rw [← hwithin.alters.owns] at host'
  have hspares : Spares live live l (f l) s (s.withLines f) := by
    refine ⟨hstage, hwithin.neutral.service ▸ id, fun hunasked => ?_, id, hwriter ▸ id,
      hwriter ▸ .inl, hwithin.alters.done⟩
    unfold Unasked
    rw [hwithin.neutral.service]
    exact hunasked
  exact ⟨gone, live, f l, host', hspares, hinput l, hend l⟩

/-- **Bytes come.** -/
theorem Serves.write (h : Serves L input accepted why unread s) (size : Nat)
    (ht : s.perform (.linesWrite (unread.take size)) = (t, .truth true)) :
    Serves L input accepted why (unread.drop size) t := by
  -- The bytes written and those left are the bytes there were.
  rw [eq_withLines_of_write ht]
  refine h.withLines (fun _ => rfl) (fun _ => ⟨rfl, rfl, rfl, rfl, rfl⟩) (fun l => ?_)
    (fun _ => .inl) fun hnone => ?_
  · rw [List.append_assoc, List.take_append_drop]
  · rw [hnone, List.drop_nil]

/-- **The input ends.** -/
theorem Serves.close (h : Serves L input accepted why [] s) :
    Serves L input accepted why [] (s.perform .linesEnd).1 :=
  h.withLines (fun _ => rfl) (fun _ => ⟨rfl, rfl, rfl, rfl, rfl⟩) (fun _ => rfl) (fun _ _ => .inr rfl)
    id

/-- **The host is told to stop.** -/
theorem Serves.cancel (h : Serves L input accepted why unread s) :
    Serves L input accepted why unread (s.perform .linesCancel).1 :=
  h.withLines (fun _ => rfl) (fun _ => ⟨rfl, rfl, rfl, rfl, rfl⟩) (fun _ => rfl) (fun _ => .inl) id

/-- **The session gives its own handle back.** -/
theorem Serves.dropClient (h : Serves L input accepted why unread s) (hstop : L.AllowsStop) :
    Serves L input accepted why unread (s.perform .dropClient).1 := by
  -- The handle may have been given back before; then nothing happens.
  by_cases howns : s.ownsHandle
  · have hstep : (s.perform .dropClient).1 = { s with ownsHandle := false }.unshare :=
      congrArg Prod.fst (if_pos howns)
    rw [hstep]
    refine h.step (fun gone live l host => ?_) id
    rw [howns, spare_true] at host
    -- The handle of the session is one that the host could have spared.
    have hkept : Manned L (spare false l.stage + 1) (requests accepted) gone live l
        { s with ownsHandle := false } :=
      ⟨⟨host.kept.neutral ⟨rfl, rfl, fun _ hs => hs.of_body rfl rfl⟩, host.host, host.call, host.limit,
        host.unbroken, host.callers, host.errands, host.counted, host.parted, host.proper,
        host.replies, host.closed⟩, host.lawful, host.notified⟩
    have hmove : s.service.move .unshare = some s.service.unshare :=
      if_pos (host.handles_pos (Nat.succ_pos _))
    have halters := Alters.setService { s with ownsHandle := false } s.service.unshare
    generalize ht : ({ s with ownsHandle := false } : Session).unshare = t
    have hservice : t.service = { s.service.unshare with outputs := [] } := by
      rw [← ht]
      exact service_setService _ _
    -- If this was the last handle, the service stops by itself.
    have hspares : Spares live live l l s t := by
      refine ⟨rfl, fun hended => ?_, fun hunasked => ?_, id, id, .inl, ht ▸ halters.done⟩
      · rw [hservice]
        exact (Service.stopAnswers_of_hasEnded hended hmove).1
      · exact hunasked.of_move hmove (fun hasks => by cases hasks) hservice
    have hgiven := hkept.unshare hstop
    rw [ht] at hgiven
    have hfalse : t.ownsHandle = false := ht ▸ halters.owns
    rw [← hfalse] at hgiven
    exact ⟨gone, live, l, hgiven, hspares, rfl, .inl⟩
  · have hsame : (s.perform .dropClient).1 = s := congrArg Prod.fst (if_neg howns)
    rw [hsame]
    exact h

/-! ## Runs -/

/-- **At the start** nothing has been accepted, and all bytes are still to come. -/
theorem serves_ofBytes (L : Law) (config : PoolSettings) (engine : Session.Engine)
    (drive : GateDrive) (input : List UInt8) :
    Serves L input [] none input (ofBytes config engine drive input).session := by
  obtain ⟨hstaffed, hnotified, hservice, hdone⟩ := staffed_start L
    (rfl : (ofBytes config engine drive input).session = _)
  obtain ⟨hcore, hgate, hreports⟩ := lawful_create L config engine drive
  refine ⟨[], [], { call := 0 }, ⟨hstaffed, ?_, hnotified⟩, .reads rfl nofun ?_ hdone,
    .reading rfl nofun⟩
  · rw [hservice]
    exact ⟨hcore, hgate, hreports⟩
  · unfold Unasked
    rw [hservice]
    exact List.not_mem_nil

/-- **A move that obeys keeps the host in its place.** -/
theorem Serves.feed {m : FeedMove} (h : Serves L input accepted why p.unread p.session)
    (hstop : L.AllowsStop) (hobeys : m.Obeys L) (hm : p.feed m = some q) :
    Advances L input accepted why q.unread q.session := by
  -- One case for each kind of move; only a turn of the host can accept lines.
  cases m with
  | service m =>
      obtain ⟨hinner, hmove⟩ := Option.ite_none_right_eq_some.mp hm
      obtain ⟨v, hv, rfl⟩ := Option.map_eq_some_iff.mp hmove
      exact (h.setService hstop hinner hobeys hv).advances
  | turn t =>
      obtain ⟨⟨hagenda, hhost⟩, rfl⟩ := Option.ite_some_none_eq_some.mp hm
      cases t with
      | handler n => exact (h.runHandler hstop hagenda).advances
      | lines i => exact (h.erase _).runLines hstop i
      | writer i => exact ((h.erase _).runWriter i).advances
      | _ => cases hhost
  | write size =>
      unfold Piped.feed at hm
      dsimp only at hm
      split at hm
      · rename_i t ht
        cases hm
        exact (h.write size ht).advances
      · cases hm
  | close =>
      obtain ⟨hread, rfl⟩ := Option.ite_some_none_eq_some.mp hm
      rw [hread] at h
      have hclosed := h.close
      rw [← hread] at hclosed
      exact hclosed.advances
  | cancel =>
      cases hm
      exact h.cancel.advances
  | dropClient =>
      cases hm
      exact (h.dropClient hstop).advances

/-- **A run that obeys keeps what has been accepted.** -/
theorem Serves.feedAll {τ : List FeedMove} (h : Serves L input accepted why p.unread p.session)
    (hstop : L.AllowsStop) (hobeys : ∀ m ∈ τ, m.Obeys L) (hplay : p.feedAll τ = some q) :
    Advances L input accepted why q.unread q.session := by
  -- By induction on the run, with any lines accepted at its start.
  induction τ generalizing p accepted why with
  | nil =>
      cases hplay
      exact h.advances
  | cons m τ ih =>
      obtain ⟨p', hm, hrest⟩ := Option.bind_eq_some_iff.mp hplay
      obtain ⟨accepted', why', h', hkept⟩ := h.feed hstop (hobeys m List.mem_cons_self) hm
      obtain ⟨accepted'', why'', h'', hkept'⟩ :=
        ih h' (fun m' hm' => hobeys m' (List.mem_cons_of_mem m hm')) hrest
      refine ⟨accepted'', why'', h'', fun hno => ?_⟩
      -- A host that has halted accepts nothing more, in the first step or later.
      obtain ⟨rfl, rfl⟩ := hkept hno
      exact hkept' hno

end Piped

end AvatarPool
