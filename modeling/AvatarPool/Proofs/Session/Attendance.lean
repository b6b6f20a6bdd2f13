import AvatarPool.Proofs.Session.Staff

/-! # A lines host in front of a pure engine

In front of a pure engine every frame has one proper reply, or none.  So what has been written, what
the writer still has to write and what the handlers that work still owe are together the replies to
all frames handed out, in some order.

In general it is known of each frame only that its reply is proper (`Staffed`).  In front of a pure
engine there is one proper reply, so it can be said beforehand what a handler owes, and the accounts
of those who are gone can be dropped.  The two descriptions are turned into each other by `staffed`
and `of_staffed`, and every step is taken from the general one. -/

namespace AvatarPool

/-- The frame that answers a request frame when its job is done directly by a pure engine. -/
def PureEngine.frame? (e : PureEngine) (frame : String) : Option String :=
  (e.reply? frame).map Response.frame

namespace Session

/-- What the handlers `live` still owe, of all that have been given the frames `fs`. -/
def due (e : PureEngine) (fs : List String) (live : List Nat) : List String :=
  live.filterMap fun n => fs[n]?.bind e.frame?

/-- **A lines host that has handed out the frames `fs`**, and whose handlers `live` still work.
Nobody cancels it, its output accepts whatever is written, and the one who runs it stays. -/
structure Attends (e : PureEngine) (base : Nat) (fs : List String) (live : List Nat) (l : LinesHost)
    (s : Session) : Prop where
  tended : Tended e base live s
  host : s.linesHosts.map LinesHost.plain = [l]
  call : l.call = 0
  uncancelled : ¬ l.cancelled
  limit : l.writer.limit = none
  unbroken : ¬ l.writer.failed
  callers : ∀ c ∈ s.calls, ¬ c.abandoned
  errands : s.handlers.map Handler.errand = fs.map fun f => (.lines 0, f)
  counted : l.inFlight = live.length
  replies : (s.frames ++ l.writer.queue ++ due e fs live).Perm (fs.filterMap e.frame?)
  closed : l.writer.finished → live = [] ∧ l.writer.queue = []

variable {e : PureEngine} {base base' : Nat} {fs : List String} {live : List Nat} {l : LinesHost}
  {s t : Session}

/-! ## What is owed -/

/-- The reply that the engine's result leads to is a proper one, and so is none for a line that asks
for nothing. -/
theorem proper_reply (e : PureEngine) (frame : String) : Proper e.law frame (e.reply? frame) := by
  cases hread : BridgeHost.readFrame frame with
  | ignore =>
      rw [PureEngine.reply?, hread]
      exact .ignored hread
  | reply r =>
      rw [PureEngine.reply?, hread]
      exact .immediate hread
  | work id job =>
      rw [PureEngine.reply?, hread]
      exact .worked hread (e.told_fingerprint job).symm

theorem due_append (ns ns' : List Nat) : due e fs (ns ++ ns') = due e fs ns ++ due e fs ns' :=
  List.filterMap_append

/-- All handlers together owe the replies to all frames. -/
theorem due_perm {ns : List Nat} (h : ns.Perm (List.range fs.length)) :
    (due e fs ns).Perm (fs.filterMap e.frame?) := by
  have hframes : fs.filterMap e.frame? = due e fs (List.range fs.length) := by
    calc fs.filterMap e.frame?
        = ((List.range fs.length).filterMap fun n => fs[n]?).filterMap e.frame? := by
          rw [filterMap_range]
      _ = due e fs (List.range fs.length) := List.filterMap_filterMap
  rw [hframes]
  exact h.filterMap _

/-- Those who are gone have made the replies that they owed. -/
theorem due_gone {gone : List (Nat × Option Response)}
    (h : ∀ g ∈ gone, ∃ f, fs[g.1]? = some f ∧ Proper e.law f g.2) :
    (gone.filterMap Prod.snd).map Response.frame = due e fs (gone.map Prod.fst) := by
  unfold due
  rw [List.map_filterMap, List.filterMap_map]
  refine List.filterMap_congr fun g hg => ?_
  obtain ⟨f, hf, hproper⟩ := h g hg
  rw [Function.comp_apply, hf, Option.bind_some, PureEngine.frame?, hproper.eq_reply]

namespace Attends

/-- The accounts of the handlers, when what they owe is known.  Whoever does not work any more has
made the reply that it owed. -/
theorem staffed (h : Attends e base fs live l s) : ∃ gone, Staffed e.law base fs gone live l s := by
  have hlength : s.handlers.length = fs.length := by
    have hlengths := congrArg List.length h.errands
    rwa [List.length_map, List.length_map] at hlengths
  have hlive : ∀ n ∈ live, n < fs.length := by
    intro n hn
    obtain ⟨x, hx⟩ := h.tended.known n hn
    rw [← hlength]
    exact (List.getElem?_eq_some_iff.mp hx).1
  -- The handlers that are gone are all the others.
  let others := (List.range fs.length).filter fun n => !decide (n ∈ live)
  have hothers : ∀ n ∈ others, n < fs.length := fun n hn =>
    List.mem_range.mp (List.mem_of_mem_filter hn)
  have hworkers : live.Perm ((List.range fs.length).filter fun n => decide (n ∈ live)) := by
    refine (List.perm_ext_iff_of_nodup h.tended.nodup (List.nodup_range.filter _)).mpr fun n => ?_
    rw [List.mem_filter, List.mem_range, decide_eq_true_iff]
    exact ⟨fun hn => ⟨hlive n hn, hn⟩, And.right⟩
  have hparted : (others ++ live).Perm (List.range fs.length) :=
    ((List.perm_append_comm.trans (hworkers.append_right others)).trans
      (List.filter_append_perm _ _))
  let gone := others.map fun n => (n, fs[n]?.bind e.reply?)
  have hfst : gone.map Prod.fst = others := by
    rw [List.map_map]
    exact List.map_id others
  have hproper : ∀ g ∈ gone, ∃ f, fs[g.1]? = some f ∧ Proper e.law f g.2 := by
    intro g hg
    obtain ⟨n, hn, rfl⟩ := List.mem_map.mp hg
    have hlt := hothers n hn
    have hf : fs[n]? = some fs[n] := List.getElem?_eq_getElem hlt
    refine ⟨_, hf, ?_⟩
    rw [hf]
    exact proper_reply e _
  refine ⟨gone, tended_iff.mp h.tended, h.host, h.call, h.limit, h.unbroken, h.callers, h.errands,
    h.counted, by rw [hfst]; exact hparted, hproper, ?_, h.closed⟩
  -- What is owed is on both sides.
  have hall := h.replies.trans (due_perm hparted).symm
  rw [due_append] at hall
  rw [due_gone hproper, hfst]
  exact (List.perm_append_right_iff _).mp hall

/-- In front of a pure engine the accounts say what is owed. -/
theorem of_staffed {gone : List (Nat × Option Response)}
    (h : Staffed e.law base fs gone live l s) (hkept : ¬ l.cancelled) : Attends e base fs live l s := by
  have hreplies : (s.frames ++ l.writer.queue).Perm (due e fs (gone.map Prod.fst)) := by
    rw [← due_gone h.proper]
    exact h.replies
  refine ⟨tended_iff.mpr h.kept, h.host, h.call, hkept, h.limit, h.unbroken, h.callers, h.errands,
    h.counted, ?_, h.closed⟩
  refine (hreplies.append_right _).trans ?_
  rw [← due_append]
  exact due_perm h.parted

theorem exists_host (h : Attends e base fs live l s) :
    ∃ l₀, s.linesHosts = [l₀] ∧ l₀.plain = l := List.map_eq_singleton_iff.mp h.host

theorem not_isAbandoned (h : Attends e base fs live l s) (n : Nat) : ¬ s.isAbandoned n := by
  obtain ⟨gone, hs⟩ := h.staffed
  exact hs.not_isAbandoned n

/-- A step that leaves the staff alone.  Neither the writer nor the number of handlers is changed.
-/
theorem alter {f : LinesHost → LinesHost} (h : Attends e base fs live l s) (ha : Alters f s t)
    (ht : Tended e base' live t) (hf : (f l).staff = l.staff) : Attends e base' fs live (f l) t := by
  obtain ⟨hcall, hcancelled, hcount, hwriter⟩ : (f l).call = l.call ∧ (f l).cancelled = l.cancelled ∧
      (f l).inFlight = l.inFlight ∧ (f l).writer = l.writer := by
    simpa [LinesHost.staff] using hf
  obtain ⟨gone, hs⟩ := h.staffed
  exact of_staffed (hs.alter ha ht.kept hcall hcount hwriter) (hcancelled ▸ h.uncancelled)

/-- The agenda gets shorter. -/
theorem erase (h : Attends e base fs live l s) (u : Turn) :
    Attends e base fs live l { s with agenda := s.agenda.erase u } := by
  have herased := Within.erase s u
  exact h.alter herased.alters (h.tended.neutral herased.neutral) rfl

/-- A frame is handed to a new handler.  What it owes is added on both sides. -/
theorem addHandler (h : Attends e base fs live l s) (hpos : 0 < base) (hopen : ¬ l.writer.finished)
    (f : String) :
    Attends e base (fs ++ [f]) (live ++ [fs.length]) { l with inFlight := l.inFlight + 1 }
      (s.addHandler (.lines 0) f) := by
  obtain ⟨gone, hs⟩ := h.staffed
  exact of_staffed (hs.addHandler hpos hopen f) h.uncancelled

/-- **The turn of a handler**: it sends its request to the service, or it replies.  A request is a
calm move, so the service goes on agreeing with the engine. -/
theorem runHandler (h : Attends e base fs live l s) (hpos : 0 < base) (ha : s.service.Agrees e)
    {n : Nat} (hn : .handler n ∈ s.agenda) :
    ∃ live' l' t, ({ s with agenda := s.agenda.erase (.handler n) }.runHandler n) = t ∧
      Attends e base fs live' l' t ∧ l'.still = l.still ∧
        l'.writer.finished = l.writer.finished ∧ t.service.Agrees e ∧ t.done = s.done ∧
          t.ownsHandle = s.ownsHandle := by
  obtain ⟨gone, hs⟩ := h.staffed
  obtain ⟨gone', live', l', hs', hvisits, hstill, hcancelled, hfinished, -⟩ :=
    hs.runHandler (absurd · ha.not_hasEnded) hn
  obtain ⟨m, v, hm, hmove, hservice⟩ := hvisits.service
  have hcalm : m.IsCalm e := by
    cases m with
    | request | share | unshare => trivial
    | _ => cases hm
  have hagrees : v.Agrees e := ha.move h.tended.settled.sound (hs.handles_pos hpos) hcalm hmove
  exact ⟨live', l', _, rfl, of_staffed hs' (hcancelled ▸ h.uncancelled), hstill, hfinished,
    hservice ▸ hagrees.clear, hvisits.done, hvisits.owns⟩

/-- **The turn of the writer**: everything queued is written.  What was queued has been written, and
counts as before. -/
theorem runWriter (h : Attends e base fs live l s) :
    ∃ l', Attends e base fs live l' (s.runWriter 0) ∧ l'.still = l.still ∧
      (l.writer.finished → l'.writer.finished) ∧
        (l'.writer.finished → l.writer.finished ∨ l.isSilent) ∧
          (s.runWriter 0).service = s.service ∧ (s.runWriter 0).done = s.done ∧
            (s.runWriter 0).ownsHandle = s.ownsHandle := by
  obtain ⟨gone, hs⟩ := h.staffed
  obtain ⟨l', hs', hstill, hcancelled, hclosed, hopen, hservice, hdone, howns, -⟩ := hs.runWriter
  exact ⟨l', of_staffed hs' (hcancelled ▸ h.uncancelled), hstill, hclosed, hopen, hservice, hdone,
    howns⟩

end Attends

end Session

end AvatarPool
