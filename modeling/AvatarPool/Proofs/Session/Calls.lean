import AvatarPool.Proofs.Bridge.Purity
import AvatarPool.Proofs.Service.StopAnswers
import AvatarPool.Proofs.Session.Moves

/-! # What the calls of a session are told

A call asks for a job, of the service itself or through a bridge.  `Heard` says of a session that
every call has been told nothing but what a pure engine yields for its job: the outcome of the job
done directly, or what comes of it over a bridge.

A call can be told by the service or by the client of a bridge.  Both come to the same: an outcome
is stored with the call, which is right if the call has asked for it (`Heard.informed`).  That it
has asked is known for the service by `Fair.awaited` and for a client by the same condition on those
who wait for it. -/

namespace AvatarPool.Session

/-- What a call asks for, through which bridge if through one, and how it is to be shown. -/
structure Ask where
  link : Option Nat
  job : Job
  form : Form

namespace Ask

/-- **The outcome that a call has**: that of the job done directly, or what comes of it over a
bridge. -/
def outcome (e : PureEngine) (q : Ask) : Outcome :=
  match q.link with
  | none => e.direct q.job
  | some _ => e.remote q.job

/-- The answer that shows it. -/
def answer (e : PureEngine) (q : Ask) : Answer := q.form.answer (q.outcome e)

end Ask

variable {e : PureEngine} {asks : List Ask} {s t u : Session}

/-! ## Who is told something -/

/-- **Calls are told**: some of them get an outcome `o` with `P n o`, and nothing else changes. -/
structure Informed (P : Nat → Outcome → Prop) (s t : Session) : Prop where
  count : t.calls.length = s.calls.length
  calls : ∀ (n : Nat) c', t.calls[n]? = some c' → ∃ c, s.calls[n]? = some c ∧
    (c' = c ∨ ∃ o, P n o ∧ c' = { c with arrived := some (c.form.answer o) })
  done : t.done = s.done

namespace Informed

variable {P : Nat → Outcome → Prop}

/-- Nobody is told anything. -/
theorem of_eq (hcalls : t.calls = s.calls) (hdone : t.done = s.done) : Informed P s t where
  count := by rw [hcalls]
  calls n c' hc' := ⟨c', hcalls ▸ hc', .inl rfl⟩
  done := hdone

/-- What is known of the outcomes may be weakened. -/
theorem mono {Q : Nat → Outcome → Prop} (h : Informed P s t) (hPQ : ∀ n o, P n o → Q n o) :
    Informed Q s t where
  count := h.count
  calls n c' hc' := by
    obtain ⟨c, hc, hsame | ⟨o, ho, heq⟩⟩ := h.calls n c' hc'
    · exact ⟨c, hc, .inl hsame⟩
    · exact ⟨c, hc, .inr ⟨o, hPQ n o ho, heq⟩⟩
  done := h.done

/-- A call may be told again in the second part. -/
theorem trans (h : Informed P s t) (h' : Informed P t u) : Informed P s u where
  count := h'.count.trans h.count
  calls n c'' hc'' := by
    obtain ⟨c', hc', htold'⟩ := h'.calls n c'' hc''
    obtain ⟨c, hc, htold⟩ := h.calls n c' hc'
    refine ⟨c, hc, ?_⟩
    rcases htold' with rfl | ⟨o', ho', rfl⟩
    · exact htold
    -- What is told last stands.
    · refine .inr ⟨o', ho', ?_⟩
      rcases htold with rfl | ⟨o, -, rfl⟩ <;> rfl
  done := h'.done.trans h.done

/-- What the service tells the calls. -/
theorem of_delivered {os : List (Output Caller)} (h : Delivered os s t) (hstops : stopsIn os = []) :
    Informed (fun n o => (.call n, o) ∈ answersIn os) s t where
  count := h.count
  calls n c' hc' := by
    obtain ⟨c, hc, hsame | htold | ⟨r, hr, -⟩⟩ := h.calls n c' hc'
    · exact ⟨c, hc, .inl hsame⟩
    · exact ⟨c, hc, .inr htold⟩
    · rw [hstops] at hr
      exact absurd hr List.not_mem_nil
  done := (congrArg Session.done h.unheard :)

end Informed

/-! ## Calls in order -/

/-- **A call in order**: what it has been told, if anything, is the answer to what it asks for. -/
structure Call.Fits (e : PureEngine) (q : Ask) (n : Nat) (c : Call) : Prop where
  turn : c.turn = .call n
  form : c.form = q.form
  holds : ¬ c.holds
  arrived : ∀ a, c.arrived = some a → a = q.answer e

/-- **The calls of a session in order**, of which `asks` says what each is for: whatever they have
been told, and have ended with, is the answer to it. -/
structure Heard (e : PureEngine) (asks : List Ask) (s : Session) : Prop where
  count : s.calls.length = asks.length
  calls : ∀ (n : Nat) c, s.calls[n]? = some c → ∃ q, asks[n]? = some q ∧ c.Fits e q n
  done : ∀ n a, (n, a) ∈ s.done → ∃ q, asks[n]? = some q ∧ a = q.answer e

namespace Heard

/-- Nobody has called. -/
theorem empty (e : PureEngine) (hcalls : s.calls = []) (hdone : s.done = []) : Heard e [] s where
  count := congrArg List.length hcalls
  calls n c hc := by
    rw [hcalls, List.getElem?_nil] at hc
    cases hc
  done n a ha := absurd (hdone ▸ ha) List.not_mem_nil

theorem congr (h : Heard e asks s) (hcalls : t.calls = s.calls) (hdone : t.done = s.done) :
    Heard e asks t :=
  ⟨hcalls ▸ h.count, hcalls ▸ h.calls, hdone ▸ h.done⟩

theorem of_body (h : Heard e asks s) (hbody : t.body = s.body) : Heard e asks t :=
  h.congr (congrArg Session.calls hbody :) (congrArg Session.done hbody :)

/-- Calls are told what they ask for. -/
theorem informed {P : Nat → Outcome → Prop} (h : Heard e asks s) (hi : Informed P s t)
    (hP : ∀ n o, P n o → ∃ q, asks[n]? = some q ∧ o = q.outcome e) : Heard e asks t where
  count := hi.count.trans h.count
  calls n c' hc' := by
    obtain ⟨c, hc, htold⟩ := hi.calls n c' hc'
    obtain ⟨q, hq, hfits⟩ := h.calls n c hc
    refine ⟨q, hq, ?_⟩
    rcases htold with rfl | ⟨o, ho, rfl⟩
    · exact hfits
    · refine ⟨hfits.turn, hfits.form, hfits.holds, fun a ha => ?_⟩
      obtain ⟨q', hq', rfl⟩ := hP n o ho
      obtain rfl := Option.some.inj (hq.symm.trans hq')
      rw [Ask.answer, ← hfits.form]
      exact (Option.some.inj ha).symm
  done := hi.done ▸ h.done

/-- A call is changed where nobody looks for what it has been told. -/
theorem modifyCall (h : Heard e asks s) (n : Nat) {f : Call → Call}
    (hf : ∀ q k c, Call.Fits e q k c → Call.Fits e q k (f c)) : Heard e asks (s.modifyCall n f) where
  count := by
    rw [← h.count]
    exact List.length_modify _ _ _
  calls k c' hc' := by
    have hget : (s.calls.modify n f)[k]? = some c' := hc'
    rw [List.getElem?_modify] at hget
    obtain ⟨c, hc, rfl⟩ := Option.map_eq_some_iff.mp hget
    obtain ⟨q, hq, hfits⟩ := h.calls k c hc
    refine ⟨q, hq, ?_⟩
    split
    · exact hf q k c hfits
    · exact hfits
  done := h.done

/-- A call that asks for something is added. -/
theorem newCall (h : Heard e asks s) (q : Ask) :
    Heard e (asks ++ [q]) (s.newCall (.call s.calls.length) q.form false) where
  count := by
    rw [List.length_append, ← h.count]
    exact List.length_append
  calls n c hc := by
    have hget : (s.calls ++ [({ turn := .call s.calls.length, form := q.form } : Call)])[n]? =
        some c := hc
    rcases getElem?_snoc_eq_some_iff.mp hget with hold | ⟨rfl, rfl⟩
    · obtain ⟨q', hq', hfits⟩ := h.calls n c hold
      exact ⟨q', getElem?_snoc_eq_some_iff.mpr (.inl hq'), hfits⟩
    · rw [h.count]
      exact ⟨q, List.getElem?_concat_length, rfl, rfl, Bool.false_ne_true, nofun⟩
  done n a ha := by
    obtain ⟨q', hq', heq⟩ := h.done n a ha
    exact ⟨q', getElem?_snoc_eq_some_iff.mpr (.inl hq'), heq⟩

/-- A call ends with the answer that has arrived.  The answer was the right one, so the call ends
rightly. -/
theorem endCall (h : Heard e asks s) {n : Nat} {c : Call} (hc : s.calls[n]? = some c) :
    Heard e asks (s.endCall n c.arrived) := by
  obtain ⟨q, hq, hfits⟩ := h.calls n c hc
  have hmodified := h.modifyCall n (f := fun c => { c with waiting := false })
    fun q k c hc => ⟨hc.turn, hc.form, hc.holds, hc.arrived⟩
  unfold Session.endCall
  rw [hc]
  refine ⟨hmodified.count, hmodified.calls, fun k a ha => ?_⟩
  rcases List.mem_append.mp ha with hold | hnew
  · exact h.done k a hold
  · split at hnew
    · exact absurd hnew List.not_mem_nil
    · obtain ⟨b, hb, heq⟩ := Option.map_eq_some_iff.mp (Option.mem_toList.mp hnew)
      obtain ⟨rfl, rfl⟩ := Prod.mk.inj heq
      exact ⟨q, hq, hfits.arrived b hb⟩

/-- **The turn of a call.**  It ends if something has arrived or its caller has gone away, and holds
no handle that it would have to give back. -/
theorem runCall (h : Heard e asks s) (n : Nat) : Heard e asks (s.runCall n) := by
  unfold Session.runCall
  split
  · rename_i c hc
    obtain ⟨q, -, hfits⟩ := h.calls n c hc
    split
    · rw [if_neg hfits.holds]
      exact h.endCall hc
    · exact h
  · exact h

/-- A caller goes away.  Its call is put on the agenda, to end without an answer. -/
theorem abandon (h : Heard e asks s) (n : Nat) : Heard e asks (s.abandon n) := by
  have hmodified := h.modifyCall n (f := fun c => { c with abandoned := true })
    fun q k c hc => ⟨hc.turn, hc.form, hc.holds, hc.arrived⟩
  unfold Session.abandon
  split
  · split
    · exact hmodified.of_body (body_schedule _ _)
    · exact h
  · exact h

end Heard

/-! ## Calls that the service answers -/

/-- Whether call `n` asks, through a bridge or not, for what is told under `k`. -/
def AsksFor (asks : List Ask) (link : Option Nat) (n : Nat) (k : Fingerprint) : Prop :=
  ∃ q, asks[n]? = some q ∧ q.link = link ∧ q.job.fingerprint = k

/-- Calls stay as they are when others are added. -/
theorem AsksFor.append {link : Option Nat} {n : Nat} {k : Fingerprint} (h : AsksFor asks link n k)
    (more : List Ask) : AsksFor (asks ++ more) link n k := by
  obtain ⟨q, hq, hlink, hk⟩ := h
  refine ⟨q, ?_, hlink, hk⟩
  rw [List.getElem?_append_left (List.getElem?_eq_some_iff.mp hq).1]
  exact hq

/-- **A session that is fair to its calls**: its service agrees with the engine, its calls are in
order, and who awaits the service has asked it. -/
structure Fair (e : PureEngine) (asks : List Ask) (s : Session) : Prop where
  agrees : s.service.Agrees e
  heard : Heard e asks s
  awaited : ∀ n k, s.service.Awaits (.call n) k → AsksFor asks none n k

namespace Fair

/-- Neither the service nor a call has changed. -/
theorem neutral (h : Fair e asks s) (hn : Neutral s t) (hcalls : t.calls = s.calls)
    (hdone : t.done = s.done) : Fair e asks t where
  agrees := hn.service ▸ h.agrees
  heard := h.heard.congr hcalls hdone
  awaited := hn.service ▸ h.awaited

/-- **A calm move of the service**, whose outputs take place.  Whoever is told has awaited it, and
so has asked for it; nobody is told of a stop, since the service does not end. -/
theorem setService (h : Fair e asks s) {base : Nat} {live : List Nat} (ht : Tended e base live s)
    (hpos : 0 < s.service.handles) {m : Move Caller} {v : Service Caller} (hcalm : m.IsCalm e)
    (hmove : s.service.move m = some v)
    (hcalls : ∀ job n, m.request? = some (job, .call n) → AsksFor asks none n job.fingerprint) :
    Fair e asks (s.setService v) := by
  have hagrees := h.agrees.move ht.settled.sound hpos hcalm hmove
  have hyields := Service.yields_of_move h.agrees ht.settled.sound hpos hcalm hmove
  obtain ⟨as, hcons⟩ := Service.exists_conserves ht.settled hmove
  -- Stops are answered at the end alone, and a calm service does not end.
  have hstops : stopsIn v.outputs = [] := by
    rcases Service.askers_of_move h.agrees.not_hasEnded hmove with ⟨-, hsame, -⟩ | ⟨hended, -, -⟩
    · have hnone : s.service.stopAnswers = [] := by
        rw [Service.stopAnswers, ht.outputs]
        rfl
      exact hsame.trans hnone
    · exact absurd hended hagrees.not_hasEnded
  refine ⟨service_setService s v ▸ hagrees.clear, ?_, ?_⟩
  · have hsame : Heard e asks { s with service := { v with outputs := [] } } :=
      h.heard.congr rfl rfl
    refine hsame.informed (.of_delivered (delivered_setService s v) hstops) fun n o ho => ?_
    -- What is told now was not told before, so it goes to somebody who waited for it.
    rcases hyields.told _ ho with hold | ⟨k, hk, htold⟩
    · rw [ht.answers_eq_nil] at hold
      exact absurd hold List.not_mem_nil
    · obtain ⟨q, hq, hlink, rfl⟩ := h.awaited n k hk
      refine ⟨q, hq, ?_⟩
      rw [Ask.outcome, hlink, ← e.told_fingerprint]
      exact htold
  · rw [service_setService]
    intro n k hk
    rcases hcons.awaits _ k hk with hold | ⟨job, hr, rfl⟩
    · exact h.awaited n k hold
    · exact hcalls job n (Option.mem_toList.mp hr)

end Fair

end AvatarPool.Session
