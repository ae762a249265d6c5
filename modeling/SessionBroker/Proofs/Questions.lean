import SessionBroker.Proofs.Acquisition

/-!
# What is asked on the way

The cluster is asked while a table is built and a name is resolved, and by nothing else: attempts to
open and to close ask nothing themselves, whatever runs inside them, since the calls inside have
numbers of their own. So once its name is resolved, an acquisition asks no question, loads nothing
and creates no pool.
-/

namespace SessionBroker

/-- From the world `w` to `w'` the call `call` asks the questions `qs`, and apart from these it
looks nothing up. -/
structure AsksOnly {ε : Type} (call : Nat) (qs : List Question) (w w' : World ε) : Prop where
  questions_eq :
    questionsOf call w'.inquiries.toList = questionsOf call w.inquiries.toList ++ qs
  unloaded : ∀ e ∈ eventsOf call (w.since w'), e.isLookup = false

theorem AsksOnly.refl {ε : Type} (call : Nat) (w : World ε) : AsksOnly call [] w w where
  questions_eq := (List.append_nil _).symm
  unloaded := by simp [since_self, eventsOf]

/-- Questions that are asked before all else. -/
theorem AsksOnly.asking {ε : Type} {call : Nat} {qs : List Question} {w w' : World ε}
    (h : AsksOnly call [] (w.asking call qs) w') : AsksOnly call qs w w' where
  questions_eq := by
    have hasked : (w.asking call qs).inquiries.toList =
        w.inquiries.toList ++ qs.map (Inquiry.mk call) := by simp [World.asking]
    rw [h.questions_eq, hasked, List.append_nil, questionsOf_append, questionsOf_own]
  unloaded := h.unloaded

namespace Surroundings

variable {ε : Type} {k : Surroundings ε} {nested : Step ε → StateM (World ε) Unit} {call : Nat}
  {qs : List Question} {w w' : World ε}

/-! ## Attempts -/

/-- The call `call` has begun and has asked the questions `qs`. -/
def HasAsked (call : Nat) (qs : List Question) (w : World ε) : Prop :=
  call < w.calls ∧ questionsOf call w.inquiries.toList = qs

/-- What runs inside a call has other numbers. -/
theorem HasAsked.stretch {new : List Entry} (h : HasAsked call qs w) (hs : Stretch none w w' new) :
    HasAsked call qs w' := by
  obtain ⟨asked, heq, hasked⟩ := hs.inquired
  refine ⟨Nat.lt_of_lt_of_le h.1 hs.calls_le, ?_⟩
  have hothers : questionsOf call asked = [] := by
    refine questionsOf_eq_nil fun i hi hcall => ?_
    rcases hasked i hi with hnone | ⟨hle, -⟩
    · cases hnone
    · exact absurd h.1 (Nat.not_lt_of_le (hcall ▸ hle))
  rw [heq, questionsOf_append, hothers, List.append_nil, h.2]

theorem HasAsked.forM (hnested : Stretches nested) (steps : List (Step ε))
    (h : HasAsked call qs w) : HasAsked call qs (steps.forM nested w).2 := by
  induction steps generalizing w with
  | nil => exact h
  | cons inner steps ih =>
      obtain ⟨new, hnew⟩ := hnested inner w
      rw [forM_cons_apply]
      exact ih (h.stretch hnew)

theorem HasAsked.attemptOpen (hnested : Stretches nested) (source : SourceId)
    (h : HasAsked call qs w) : HasAsked call qs (k.attemptOpen nested call source w).2 := by
  rw [attemptOpen_apply]
  exact HasAsked.forM hnested _ (w := { w.record call (.opening source) with env := _ }) h

theorem HasAsked.attemptClose (hnested : Stretches nested) (c : Connection)
    (h : HasAsked call qs w) : HasAsked call qs (k.attemptClose nested call c w).2 := by
  rw [attemptClose_apply]
  exact HasAsked.forM hnested _ (w := { w.record call (.closing c) with env := _ }) h

theorem HasAsked.inTurn {α : Type} (as : List (Action (World ε) α))
    (has : ∀ a ∈ as, ∀ u, HasAsked call qs u → HasAsked call qs (a u).2) (h : HasAsked call qs w) :
    HasAsked call qs (inTurn as w).2 := by
  induction as generalizing w with
  | nil => exact h
  | cons a as ih =>
      rw [inTurn_cons]
      exact ih (fun b hb => has b (List.mem_cons_of_mem a hb)) (has a List.mem_cons_self w h)

theorem HasAsked.opens (hnested : Stretches nested) {source : SourceId} {n : Nat}
    {rs : List (Except Error Connection)} (h : HasAsked call qs w)
    (hopen : SessionBroker.inTurn (List.replicate n (k.attemptOpen nested call source)) w =
      (rs, w')) : HasAsked call qs w' := by
  have hall := h.inTurn (List.replicate n (k.attemptOpen nested call source)) fun a ha u hu => by
    rw [(List.mem_replicate.mp ha).2]
    exact hu.attemptOpen hnested source
  rwa [hopen] at hall

theorem HasAsked.closes (hnested : Stretches nested) {cs : List Connection}
    {rs : List (Except Error Unit)} (h : HasAsked call qs w)
    (hclose : SessionBroker.inTurn (cs.map (k.attemptClose nested call)) w = (rs, w')) :
    HasAsked call qs w' := by
  have hall := h.inTurn (cs.map (k.attemptClose nested call)) fun a ha u hu => by
    obtain ⟨c, -, rfl⟩ := List.mem_map.mp ha
    exact hu.attemptClose hnested c
  rwa [hclose] at hall

/-! ## Acquisitions -/

section Acquiring

variable {depth s count : Nat} {name : String} {mode : AcquisitionMode} {w₁ : World ε}

theorem isLookup_of_attempt (e : Event) (h : e.isAttempt = true) : e.isLookup = false := by
  cases e <;> first | rfl | cases h

/-- Once its name is resolved, an acquisition asks nothing and looks nothing up. -/
theorem acquire_asksOnly (hcall : call < w.calls) {r : Except Error (List Connection)}
    (h : World.acquire (k.cluster.logged call) (k.sources (k.nested depth) call) call s name count
      mode w = (r, w')) (hname : name ≠ "") (hcount : count ≠ 0) {q : Except Error SourceId}
    (hsource : World.resolveSource (k.cluster.logged call) s name w = (q, w₁)) :
    AsksOnly call [] w₁ w' := by
  have hnested := stretches_nested k depth
  have hcall₁ : call < w₁.calls :=
    Nat.lt_of_lt_of_eq hcall (onlyLooks_resolve hcall hsource).calls_eq.symm
  have hbegun : HasAsked call (questionsOf call w₁.inquiries.toList) w₁ := ⟨hcall₁, rfl⟩
  cases acquires h with
  | unnamed h' => exact absurd h' hname
  | uncounted _ h' => exact absurd h' hcount
  | unresolved _ _ hsource' =>
      cases hsource.symm.trans hsource'
      exact .refl call _
  | reused _ _ hsource' =>
      cases hsource.symm.trans hsource'
      exact .refl call _
  | rolledBack _ _ hsource' _ hopen hclose =>
      cases hsource.symm.trans hsource'
      have hasked := (hbegun.opens hnested hopen).closes hnested hclose
      obtain ⟨new, hnew, hown⟩ := stretch_rolledBack hcall₁ hopen hclose
      refine ⟨by rw [hasked.2, List.append_nil], fun e he => ?_⟩
      rw [since_eq hnew.log_eq, hown] at he
      exact isLookup_of_attempt e (attempt_of_rolledBack he)
  | @opened _ w₂ _ opened _ _ hsource' _ _ hopen =>
      cases hsource.symm.trans hsource'
      have hasked := hbegun.opens hnested hopen
      obtain ⟨new, hnew, hown⟩ := stretch_opens hcall₁ hopen
      rw [map_ok_flatMap] at hown
      refine ⟨?_, fun e he => ?_⟩
      · rw [List.append_nil, ← hasked.2]
        cases mode <;> rfl
      · rw [since_eq (log_kept hnew.log_eq mode call s name opened), eventsOf_append, hown] at he
        rcases List.mem_append.mp he with he | he
        · rcases mem_openingEvents he with rfl | ⟨c, rfl⟩ <;> rfl
        · cases mode with
          | memoryStrictly =>
              have heq : e = .kept s name opened := by
                simpa [AcquisitionMode.keepsNew, eventsOf] using he
              rw [heq]
              rfl
          | connectionStrictly => simp [AcquisitionMode.keepsNew, eventsOf] at he

end Acquiring

end Surroundings

end SessionBroker
