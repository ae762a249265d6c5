import SessionBroker.Proofs.Tour

/-!
# How a batch is served

An acquisition that succeeds resolves its name, reads what is held, opens what is missing, with
whatever runs inside these attempts, and last keeps what it opened, or does not. `Served` says so in
one piece, with what the log tells of it; what acquisitions do among others, what they hand out and
what they do alone is read off it.
-/

namespace SessionBroker

namespace Surroundings

variable {ε : Type}

/-- How an acquisition that succeeds with `cs` gets from the world `w` to `w'`: the batch is complete
in `w₂`, and until then the log tells `new`. -/
structure Served (k : Surroundings ε) (depth call s : Nat) (name : String) (count : Nat)
    (mode : AcquisitionMode) (cs opened : List Connection) (new : List Entry) (w w₂ w' : World ε) :
    Prop where
  count_ne_zero : count ≠ 0
  stretch : Stretch (some call) w w₂ new
  /-- If attempts run no further steps, no other call begins. -/
  alone : depth = 0 → w₂.calls = w.calls
  opens_eq : (eventsOf call new).flatMap Event.opens = opened
  leavesHeld : ∀ e ∈ eventsOf call new, e.leavesHeld = true
  /-- What is missing is opened, and what is held comes first. -/
  length_eq : opened.length = count - (w.heldFor s name).length
  batch_eq : cs = (w.heldFor s name).take count ++ opened
  world_eq : w' = if mode.keepsNew ∧ opened ≠ [] then w₂.keep call s name opened else w₂

section Serving

variable {k : Surroundings ε} {depth call s count : Nat} {name : String} {mode : AcquisitionMode}
  {cs opened : List Connection} {new : List Entry} {w w₂ w' : World ε}

theorem acquire_served (hcall : call < w.calls)
    (h : World.acquire (k.cluster.logged call) (k.sources (k.nested depth) call) call s name count
      mode w = (.ok cs, w')) :
    ∃ opened new w₂, k.Served depth call s name count mode cs opened new w w₂ w' := by
  cases acquires h with
  | reused _ hcount hsource henough =>
      have hlooks := onlyLooks_resolve hcall hsource
      obtain ⟨new, hnew, hown⟩ := stretch_resolve hcall hsource
      have hheld : w'.heldFor s name = w.heldFor s name :=
        congrArg (Holdings.heldFor · name) (hlooks.held_eq s)
      rw [hheld] at henough ⊢
      refine ⟨[], new, w', hcount, hnew, fun _ => hlooks.calls_eq,
        flatMap_lookups opens_of_lookup hown, fun e he => leavesHeld_of_lookup e (hown e he), ?_,
        (List.append_nil _).symm, (if_neg fun h => h.2 rfl).symm⟩
      exact (Nat.sub_eq_zero_of_le henough).symm
  | @opened w₁ w₂ source opened _ hcount hsource hshort hlen hopen =>
      have hlooks := onlyLooks_resolve hcall hsource
      obtain ⟨looks, hlooked, hown⟩ := stretch_resolve hcall hsource
      obtain ⟨during, hduring, hown'⟩ :=
        stretch_opens (Nat.lt_of_lt_of_le hcall hlooked.calls_le) hopen
      rw [map_ok_flatMap] at hown'
      have hheld : w₁.heldFor s name = w.heldFor s name :=
        congrArg (Holdings.heldFor · name) (hlooks.held_eq s)
      have hnone : opened ≠ [] := by
        rintro rfl
        rw [List.length_nil] at hlen
        omega
      rw [hheld] at hshort hlen ⊢
      refine ⟨opened, looks ++ during, w₂, hcount, hlooked.append hcall hduring, ?_, ?_, ?_, hlen, ?_,
        ?_⟩
      · rintro rfl
        have hcourse : k.Course (k.nested 0) call (.outside (pure .done)) w₁ _ w₂ :=
          opens_course hopen
        exact (calls_of_course hcourse).trans hlooks.calls_eq
      · rw [eventsOf_append, hown', List.flatMap_append, flatMap_lookups opens_of_lookup hown,
          opens_openingEvents, List.nil_append]
      · intro e he
        rw [eventsOf_append, hown'] at he
        rcases List.mem_append.mp he with he | he
        · exact leavesHeld_of_lookup e (hown e he)
        · exact leavesHeld_of_attempt e (attempt_of_opening he)
      · rw [List.take_of_length_le (Nat.le_of_lt hshort)]
      · simp only [ne_eq, hnone, not_false_eq_true, and_true]

/-- What an acquisition adds to the log last. -/
theorem Served.log_eq (h : k.Served depth call s name count mode cs opened new w w₂ w') :
    w'.log.toList = w.log.toList ++
      (new ++ if mode.keepsNew ∧ opened ≠ [] then [⟨call, .kept s name opened⟩] else []) := by
  rw [h.world_eq]
  split
  · rw [World.log_keep, h.stretch.log_eq, List.append_assoc]
  · rw [h.stretch.log_eq, List.append_nil]

/-- New connections that are to be kept join what is held. -/
theorem Served.kept_eq (h : k.Served depth call s name count .memoryStrictly cs opened new w w₂ w')
    (hopened : opened ≠ []) : w' = w₂.keep call s name opened := by
  rw [h.world_eq]
  exact if_pos ⟨rfl, hopened⟩

end Serving

end Surroundings

end SessionBroker
