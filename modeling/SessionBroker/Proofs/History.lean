import SessionBroker.Proofs.Course
import SessionBroker.Proofs.Log

/-!
# What a run leaves in the log

`Script` says what the own events of a step can be, from its beginning to its end, and what the
step then came to. `Stretch` says what a piece of a run adds to the log and to the questions: the
numbers of its calls, a script for each call that ended, and holdings that are those replayed. It is
kept by every move, and so by every step, nested however deep (`stretch_exec`); a run from a new
world is one stretch (`stretch_run`).

No statement here speaks of a call that is still unfinished: between two steps of a run all calls
have ended, and what held inside one is read off a prefix of the log.
-/

namespace SessionBroker

/-! ## Scripts -/

/-- The call of a script opens, closes and releases nothing. -/
def Call.inspects : Call → Bool
  | .acquire _ _ _ _ | .release _ => false
  | _ => true

/-- The own events of a step, without those of its beginning and its end, and its outcome. -/
inductive Script : Option Call → List Event → Outcome → Prop where
  | refused (call : Option Call) : Script call [] .refused
  | outside (a : Answer) : Script none [] (.answered a)
  /-- A caller closes a connection. -/
  | closed (c : Connection) (r : Except Error Unit) (o : Outcome) : Script none (closeEvents c r) o
  | inspected {call : Call} {looks : List Event} (hcall : call.inspects = true)
      (hlooks : ∀ e ∈ looks, e.isLookup = true) (o : Outcome) : Script (some call) looks o
  /-- The arguments are refused, or the name stands for nothing. -/
  | unresolved {s count : Nat} {name : String} {mode : AcquisitionMode} {looks : List Event}
      (hlooks : ∀ e ∈ looks, e.isLookup = true) (e : Error) :
      Script (some (.acquire s name count mode)) looks (.failed e)
  | reused {s count : Nat} {name : String} {mode : AcquisitionMode} {looks : List Event}
      (hlooks : ∀ e ∈ looks, e.isLookup = true) (cs : List Connection) :
      Script (some (.acquire s name count mode)) looks (.answered (.connections cs))
  | rolledBack {s count : Nat} {name : String} {mode : AcquisitionMode} {looks : List Event}
      (hlooks : ∀ e ∈ looks, e.isLookup = true) (source : SourceId) (opened : List Connection)
      (cause : Error) {rs : List (Except Error Unit)} (hrs : rs.length = opened.length) :
      Script (some (.acquire s name count mode))
        (looks ++ (openingEvents source opened ++ openEvents source (.error cause) ++
          closingEvents opened rs))
        (.failed (.acquisitionFailed count opened.length cause))
  | opened {s count : Nat} {name : String} {mode : AcquisitionMode} {looks : List Event}
      (hlooks : ∀ e ∈ looks, e.isLookup = true) (source : SourceId)
      (reused opened : List Connection) :
      Script (some (.acquire s name count mode))
        (looks ++ (openingEvents source opened ++
          if mode.keepsNew then [.kept s name opened] else []))
        (.answered (.connections (reused ++ opened)))
  | released {s : Nat} (entries : List (String × List Connection))
      {rs : List (Except Error Unit)} (hrs : rs.length = (entries.flatMap Prod.snd).length)
      (o : Outcome) :
      Script (some (.release s))
        (.drained s entries :: closingEvents (entries.flatMap Prod.snd) rs) o

/-! ## Stretches -/

/-- A connection that the call `n` opened in a piece of a run, or that was held before it or
came to be held in it. -/
def Sourced {ε : Type} (w : World ε) (new : List Entry) (n : Nat) (c : Connection) : Prop :=
  c ∈ (eventsOf n new).flatMap Event.opens ∨ c ∈ gather Event.keeps new ∨
    ∃ s, c ∈ (w.session s).holdings.all

/-- The call `n` began and ended in a piece of a run. -/
structure Finished {ε : Type} (w : World ε) (new : List Entry) (n : Nat) (call : Option Call)
    (body : List Event) (o : Outcome) (view : Option View) : Prop where
  events_eq : eventsOf n new = .begun call :: (body ++ [.ended o view])
  script : Script call body o
  /-- Connections that a call answers with are its own, or are held, or came to be held. -/
  sourced : call.isSome → ∀ cs, o = .answered (.connections cs) → ∀ c ∈ cs, Sourced w new n c
  /-- A session that is asked whether it is valid answers what it shows. -/
  asked : ∀ s, call = some (.isValid s) →
    o = .refused ∨ ∃ v, view = some v ∧ o = .answered (.flag v.valid)

/-- What a piece of a run adds to the log while the call `running`, if there is one, is under way.
The numbers are those of `running` or of calls that begin and end in the piece. -/
structure Stretch {ε : Type} (running : Option Nat) (w w' : World ε) (new : List Entry) : Prop where
  log_eq : w'.log.toList = w.log.toList ++ new
  calls_le : w.calls ≤ w'.calls
  sessions_le : w.sessions.length ≤ w'.sessions.length
  numbered : ∀ e ∈ new, some e.call = running ∨ w.calls ≤ e.call ∧ e.call < w'.calls
  inquired : ∃ asked, w'.inquiries.toList = w.inquiries.toList ++ asked ∧
    ∀ i ∈ asked, some i.call = running ∨ w.calls ≤ i.call ∧ i.call < w'.calls
  held_eq : ∀ s, (w'.session s).holdings = replay s (w.session s).holdings new
  honest : ∀ s pre e post, new = pre ++ e :: post →
    e.event.Honest s (replay s (w.session s).holdings pre)
  finished : ∀ n, w.calls ≤ n → n < w'.calls →
    ∃ call body o view, Finished w new n call body o view

namespace Stretch

variable {ε : Type} {running : Option Nat} {w w₁ w' : World ε} {new new' : List Entry}

theorem refl (running : Option Nat) (w : World ε) : Stretch running w w [] where
  log_eq := by simp
  calls_le := Nat.le_refl _
  sessions_le := Nat.le_refl _
  numbered := by simp
  inquired := ⟨[], by simp, by simp⟩
  held_eq := fun _ => rfl
  honest := by simp
  finished := by omega

/-- Where a connection came from is the same seen from an earlier world. -/
theorem sourced_append (h : Stretch running w w₁ new) {n : Nat} {c : Connection}
    (hc : Sourced w new n c ∨ Sourced w₁ new' n c) : Sourced w (new ++ new') n c := by
  unfold Sourced
  rw [eventsOf_append, List.flatMap_append, gather_append, List.mem_append, List.mem_append]
  rcases hc with (ho | hk | hs) | ho | hk | ⟨s, hs⟩
  · exact .inl (.inl ho)
  · exact .inr (.inl (.inl hk))
  · exact .inr (.inr hs)
  · exact .inl (.inr ho)
  · exact .inr (.inl (.inr hk))
  · rw [h.held_eq] at hs
    rcases mem_replay hs with hs | hk
    · exact .inr (.inr ⟨s, hs⟩)
    · exact .inr (.inl (.inl (keepsIn_subset hk)))

theorem trans (h : Stretch running w w₁ new) (hrunning : ∀ n ∈ running, n < w.calls)
    (h' : Stretch running w₁ w' new') : Stretch running w w' (new ++ new') := by
  have hcalls := h.calls_le
  have hcalls' := h'.calls_le
  -- the calls of either piece have no events in the other
  have hafter : ∀ n, w.calls ≤ n → n < w₁.calls → eventsOf n new' = [] := by
    intro n hn hn₁
    refine eventsOf_eq_nil fun e he heq => ?_
    subst heq
    rcases h'.numbered e he with hrun | ⟨hle, -⟩
    · have := hrunning e.call hrun.symm
      omega
    · omega
  have hbefore : ∀ n, w₁.calls ≤ n → eventsOf n new = [] := by
    intro n hn
    refine eventsOf_eq_nil fun e he heq => ?_
    subst heq
    rcases h.numbered e he with hrun | ⟨-, hlt⟩
    · have := hrunning e.call hrun.symm
      omega
    · omega
  refine ⟨?_, Nat.le_trans hcalls hcalls', Nat.le_trans h.sessions_le h'.sessions_le, ?_, ?_, ?_,
    ?_, ?_⟩
  · rw [h'.log_eq, h.log_eq, List.append_assoc]
  · intro e he
    rcases List.mem_append.mp he with he | he
    · exact (h.numbered e he).imp_right fun hn => ⟨hn.1, Nat.lt_of_lt_of_le hn.2 hcalls'⟩
    · exact (h'.numbered e he).imp_right fun hn => ⟨Nat.le_trans hcalls hn.1, hn.2⟩
  · obtain ⟨asked, heq, hasked⟩ := h.inquired
    obtain ⟨asked', heq', hasked'⟩ := h'.inquired
    refine ⟨asked ++ asked', by rw [heq', heq, List.append_assoc], fun i hi => ?_⟩
    rcases List.mem_append.mp hi with hi | hi
    · exact (hasked i hi).imp_right fun hn => ⟨hn.1, Nat.lt_of_lt_of_le hn.2 hcalls'⟩
    · exact (hasked' i hi).imp_right fun hn => ⟨Nat.le_trans hcalls hn.1, hn.2⟩
  · intro s
    rw [h'.held_eq, h.held_eq, replay_append]
  · intro s pre e post heq
    rcases split_append heq with ⟨mid, hnew⟩ | ⟨mid, rfl, hnew'⟩
    · exact h.honest s pre e mid hnew
    · rw [replay_append, ← h.held_eq]
      exact h'.honest s mid e post hnew'
  -- a call that ended did so in one of the two pieces, by its number
  · intro n hn hn'
    by_cases hn₁ : n < w₁.calls
    · obtain ⟨call, body, o, view, hf⟩ := h.finished n hn hn₁
      refine ⟨call, body, o, view, ?_, hf.script, fun hsome cs ho c hc => ?_, hf.asked⟩
      · rw [eventsOf_append, hafter n hn hn₁, List.append_nil, hf.events_eq]
      · exact h.sourced_append (.inl (hf.sourced hsome cs ho c hc))
    · have hn₁ := Nat.le_of_not_lt hn₁
      obtain ⟨call, body, o, view, hf⟩ := h'.finished n hn₁ hn'
      refine ⟨call, body, o, view, ?_, hf.script, fun hsome cs ho c hc => ?_, hf.asked⟩
      · rw [eventsOf_append, hbefore n hn₁, List.nil_append, hf.events_eq]
      · exact h.sourced_append (.inr (hf.sourced hsome cs ho c hc))

/-- Pieces of a call that is under way. -/
theorem append {call : Nat} (hcall : call < w.calls) (h : Stretch (some call) w w₁ new)
    (h' : Stretch (some call) w₁ w' new') : Stretch (some call) w w' (new ++ new') := by
  refine h.trans ?_ h'
  rintro n hn
  cases hn
  exact hcall

end Stretch

end SessionBroker
