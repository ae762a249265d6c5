import SessionBroker.Session.Acquisition

/-!
# Batches as attempts in turn

`openUpTo` and `closeAll` decide after every attempt how to go on. What they did is
said here without those decisions: which attempts were made, one after the other, and what
each came to. A batch that succeeds is as many successes as were asked for; one that fails is
fewer successes, then the failure, then nothing; a release makes one attempt per connection.
-/

namespace SessionBroker

/-! ## Blocks applied to a state -/

theorem stateM_bind_apply {σ α β : Type} (a : StateM σ α) (f : α → StateM σ β) (w : σ) :
    (a >>= f) w = f (a w).1 (a w).2 := rfl

theorem stateM_get_apply {σ : Type} (w : σ) : (get : StateM σ σ) w = (w, w) := rfl

theorem stateM_modify_apply {σ : Type} (f : σ → σ) (w : σ) :
    (modify f : StateM σ PUnit) w = (⟨⟩, f w) := rfl

theorem onEnv_apply {ε α : Type} (a : StateM ε α) (w : World ε) :
    World.onEnv a w = ((a w.env).1, { w with env := (a w.env).2 }) := rfl

/-! ## Questions applied to a world -/

section Questions

variable {ε α : Type} (cluster : Cluster ε) (call : Nat) (w : World ε)

theorem physical_bind_apply (schema : String) (f : SourceMap → Action (World ε) α) :
    (liftM ((cluster.logged call).physical schema) >>= f) w =
      f (cluster.physical w.env schema) (w.ask call (.physical schema)) := rfl

theorem trafficRule_bind_apply (f : Option TrafficRule → Action (World ε) α) :
    (liftM (cluster.logged call).trafficRule >>= f) w =
      f (cluster.trafficRule w.env) (w.ask call .trafficRule) := rfl

theorem registry_bind_apply (f : Option (Registry (World ε)) → Action (World ε) α) :
    (liftM (cluster.logged call).registry >>= f) w =
      f ((cluster.registry w.env).map (·.logged call)) (w.ask call .registry) := rfl

/-- The physical sources are asked for if nothing is held. -/
theorem candidates_apply (s : Nat) :
    World.candidates (cluster.logged call) s w =
      if (w.session s).holdings.names = [] then
        ((cluster.physical w.env (w.session s).router.schema).keys,
          w.ask call (.physical (w.session s).router.schema))
      else ((w.session s).holdings.names, w) := by
  rw [World.candidates, stateM_bind_apply, stateM_get_apply]
  dsimp only
  cases (w.session s).holdings.names <;> rfl

theorem candidates_fst (s : Nat) :
    (World.candidates (cluster.logged call) s w).1 =
      if (w.session s).holdings.names = [] then
        (cluster.physical w.env (w.session s).router.schema).keys
      else (w.session s).holdings.names := by
  rw [candidates_apply]
  split <;> rfl

end Questions

/-! ## Attempts in turn -/

/-- Makes attempts one after the other, whatever each comes to. -/
def inTurn {σ α : Type} : List (Action σ α) → StateM σ (List (Except Error α))
  | [] => return []
  | a :: as => do
    let r ← a.run
    let rs ← inTurn as
    return r :: rs

section Batches

variable {σ α κ : Type}

theorem inTurn_cons (a : Action σ α) (as : List (Action σ α)) (w : σ) :
    inTurn (a :: as) w = ((a w).1 :: (inTurn as (a w).2).1, (inTurn as (a w).2).2) := rfl

theorem length_inTurn (as : List (Action σ α)) (w : σ) :
    (inTurn as w).1.length = as.length := by
  induction as generalizing w with
  | nil => rfl
  | cons a as ih => rw [inTurn_cons, List.length_cons, List.length_cons, ih]

theorem length_of_inTurn {as : List (Action σ α)} {w w' : σ} {rs : List (Except Error α)}
    (h : inTurn as w = (rs, w')) : rs.length = as.length := by
  rw [← length_inTurn as w, h]

/-! ## Opening -/

theorem openUpTo_succ_error {openOne : Action σ κ} {w w₁ : σ} {e : Error} (n : Nat)
    (h : openOne w = (.error e, w₁)) : openUpTo openOne (n + 1) w = (([], some e), w₁) := by
  simp only [openUpTo, ExceptT.run, stateM_bind_apply, h]
  rfl

theorem openUpTo_succ_ok {openOne : Action σ κ} {w w₁ : σ} {c : κ} (n : Nat)
    (h : openOne w = (.ok c, w₁)) :
    openUpTo openOne (n + 1) w =
      ((c :: (openUpTo openOne n w₁).1.1, (openUpTo openOne n w₁).1.2),
        (openUpTo openOne n w₁).2) := by
  simp only [openUpTo, ExceptT.run, stateM_bind_apply, h]
  rfl

/-- A batch that no attempt failed in is `n` attempts, all of them successes. -/
theorem openUpTo_none {openOne : Action σ κ} {n : Nat} {w w' : σ} {cs : List κ}
    (h : openUpTo openOne n w = ((cs, none), w')) :
    cs.length = n ∧ inTurn (List.replicate n openOne) w = (cs.map .ok, w') := by
  induction n generalizing w cs with
  | zero =>
      cases h
      exact ⟨rfl, rfl⟩
  | succ n ih =>
      rcases hw : openOne w with ⟨r, w₁⟩
      cases r with
      | error e =>
          rw [openUpTo_succ_error n hw] at h
          cases h
      | ok c =>
          rw [openUpTo_succ_ok n hw] at h
          rcases hb : openUpTo openOne n w₁ with ⟨⟨ds, failure⟩, w₂⟩
          rw [hb] at h
          cases h
          obtain ⟨hlen, hturn⟩ := ih hb
          refine ⟨by rw [List.length_cons, hlen], ?_⟩
          rw [List.replicate_succ, inTurn_cons, hw, hturn]
          rfl

/-- A batch that an attempt failed in is fewer than `n` successes and that failure. -/
theorem openUpTo_some {openOne : Action σ κ} {n : Nat} {w w' : σ} {cs : List κ} {e : Error}
    (h : openUpTo openOne n w = ((cs, some e), w')) :
    cs.length < n ∧
      inTurn (List.replicate (cs.length + 1) openOne) w = (cs.map .ok ++ [.error e], w') := by
  induction n generalizing w cs with
  | zero => cases h
  | succ n ih =>
      rcases hw : openOne w with ⟨r, w₁⟩
      cases r with
      | error e₁ =>
          rw [openUpTo_succ_error n hw] at h
          cases h
          -- nothing is attempted after the failure
          refine ⟨Nat.succ_pos n, ?_⟩
          rw [List.length_nil, List.replicate_succ, inTurn_cons, hw]
          rfl
      | ok c =>
          rw [openUpTo_succ_ok n hw] at h
          rcases hb : openUpTo openOne n w₁ with ⟨⟨ds, failure⟩, w₂⟩
          rw [hb] at h
          cases h
          obtain ⟨hlt, hturn⟩ := ih hb
          refine ⟨Nat.succ_lt_succ hlt, ?_⟩
          rw [List.length_cons, List.replicate_succ, inTurn_cons, hw, hturn]
          rfl

/-! ## Closing -/

/-- How many of the attempts failed. -/
def failures (rs : List (Except Error α)) : Nat := rs.countP fun r => !r.isOk

theorem closeAll_cons (closeOne : κ → Action σ Unit) (c : κ) (cs : List κ) (w : σ) :
    closeAll closeOne (c :: cs) w =
      ((closeAll closeOne cs (closeOne c w).2).1 + failures [(closeOne c w).1],
        (closeAll closeOne cs (closeOne c w).2).2) := by
  rcases hw : closeOne c w with ⟨r, w₁⟩
  simp only [closeAll, ExceptT.run, stateM_bind_apply, hw]
  cases r <;> rfl

/-- Releasing attempts every connection, in order, and counts the failures. -/
theorem closeAll_eq (closeOne : κ → Action σ Unit) (cs : List κ) (w : σ) :
    closeAll closeOne cs w =
      (failures (inTurn (cs.map closeOne) w).1, (inTurn (cs.map closeOne) w).2) := by
  induction cs generalizing w with
  | nil => rfl
  | cons c cs ih =>
      rw [closeAll_cons, ih, List.map_cons, inTurn_cons]
      refine Prod.ext ?_ rfl
      show failures _ + failures [_] = failures (_ :: _)
      rw [Nat.add_comm, failures, failures, failures, ← List.countP_append, List.singleton_append]

end Batches

/-! ## Acquisitions -/

section Acquisitions

variable {ε : Type} (access : Access (World ε)) (sources : Sources (World ε)) (call s : Nat)
  (name : String) (count : Nat) (mode : AcquisitionMode)

/-- What an acquisition does in a world, in terms of attempts in turn. -/
inductive Acquires (w : World ε) : Except Error (List Connection) → World ε → Prop where
  | unnamed (hname : name = "") :
      Acquires w (.error (.invalidArgument "data source name must not be empty")) w
  | uncounted (hname : name ≠ "") (hcount : count = 0) :
      Acquires w (.error (.invalidArgument "connection count must be at least 1")) w
  | unresolved {w₁ : World ε} {e : Error} (hname : name ≠ "") (hcount : count ≠ 0)
      (hsource : World.resolveSource access s name w = (.error e, w₁)) :
      Acquires w (.error e) w₁
  /-- Enough is held. -/
  | reused {w₁ : World ε} {source : SourceId} (hname : name ≠ "") (hcount : count ≠ 0)
      (hsource : World.resolveSource access s name w = (.ok source, w₁))
      (henough : count ≤ (w₁.heldFor s name).length) :
      Acquires w (.ok ((w₁.heldFor s name).take count)) w₁
  /-- An attempt failed, and what had been opened was closed. -/
  | rolledBack {w₁ w₂ w₃ : World ε} {source : SourceId} {opened : List Connection} {cause : Error}
      {rs : List (Except Error Unit)} (hname : name ≠ "") (hcount : count ≠ 0)
      (hsource : World.resolveSource access s name w = (.ok source, w₁))
      (hfewer : opened.length < count - (w₁.heldFor s name).length)
      (hopen : inTurn (List.replicate (opened.length + 1) (sources.openOne source)) w₁ =
        (opened.map .ok ++ [.error cause], w₂))
      (hclose : inTurn (opened.map sources.closeOne) w₂ = (rs, w₃)) :
      Acquires w (.error (.acquisitionFailed count opened.length cause)) w₃
  /-- What was missing was opened. -/
  | opened {w₁ w₂ : World ε} {source : SourceId} {opened : List Connection} (hname : name ≠ "")
      (hcount : count ≠ 0)
      (hsource : World.resolveSource access s name w = (.ok source, w₁))
      (hshort : (w₁.heldFor s name).length < count)
      (hlen : opened.length = count - (w₁.heldFor s name).length)
      (hopen : inTurn (List.replicate opened.length (sources.openOne source)) w₁ =
        (opened.map .ok, w₂)) :
      Acquires w (.ok (w₁.heldFor s name ++ opened))
        (if mode.keepsNew then w₂.keep call s name opened else w₂)

variable {access sources call s name count mode}

theorem acquire_unnamed (hname : name = "") (w : World ε) :
    World.acquire access sources call s name count mode w =
      (.error (.invalidArgument "data source name must not be empty"), w) := by
  subst hname
  rfl

theorem acquire_uncounted (hname : name ≠ "") (hcount : count = 0) (w : World ε) :
    World.acquire access sources call s name count mode w =
      (.error (.invalidArgument "connection count must be at least 1"), w) := by
  have hempty : name.isEmpty = false := by simpa using hname
  simp only [World.acquire, hempty, hcount, if_true, Bool.false_eq_true, if_false]
  rfl

theorem acquire_named (hname : name ≠ "") (hcount : count ≠ 0) (w : World ε) :
    World.acquire access sources call s name count mode w =
      (match World.resolveSource access s name w with
        | (.error e, w₁) => (.error e, w₁)
        | (.ok source, w₁) =>
          if count ≤ (w₁.heldFor s name).length then (.ok ((w₁.heldFor s name).take count), w₁)
          else
            match openUpTo (sources.openOne source) (count - (w₁.heldFor s name).length) w₁ with
            | ((opened, some cause), w₂) =>
              (.error (.acquisitionFailed count opened.length cause),
                (closeAll sources.closeOne opened w₂).2)
            | ((opened, none), w₂) =>
              (.ok (w₁.heldFor s name ++ opened),
                if mode.keepsNew then w₂.keep call s name opened else w₂)) := by
  have hempty : name.isEmpty = false := by simpa using hname
  simp only [World.acquire, hempty, hcount, Bool.false_eq_true, if_false, Action.bind_apply]
  rcases World.resolveSource access s name w with ⟨r, w₁⟩
  cases r with
  | error e => rfl
  | ok source =>
      simp only [Action.get_apply]
      by_cases henough : count ≤ (w₁.heldFor s name).length
      · simp only [henough, if_true]
        rfl
      · simp only [henough, if_false, Action.bind_apply, Action.lift_apply]
        rcases openUpTo (sources.openOne source) (count - (w₁.heldFor s name).length) w₁ with
          ⟨⟨opened, failure⟩, w₂⟩
        cases failure with
        | some cause =>
            simp only [Action.bind_apply, Action.lift_apply]
            rfl
        | none =>
            simp only
            split <;> rfl

/-- There is no other way for an acquisition to go. -/
theorem acquires {w w' : World ε} {r : Except Error (List Connection)}
    (h : World.acquire access sources call s name count mode w = (r, w')) :
    Acquires access sources call s name count mode w r w' := by
  by_cases hname : name = ""
  · rw [acquire_unnamed hname] at h
    cases h
    exact .unnamed hname
  by_cases hcount : count = 0
  · rw [acquire_uncounted hname hcount] at h
    cases h
    exact .uncounted hname hcount
  rw [acquire_named hname hcount] at h
  rcases hsource : World.resolveSource access s name w with ⟨r₁, w₁⟩
  rw [hsource] at h
  cases r₁ with
  | error e =>
      cases h
      exact .unresolved hname hcount hsource
  | ok source =>
      by_cases henough : count ≤ (w₁.heldFor s name).length
      · simp only [henough, if_true] at h
        cases h
        exact .reused hname hcount hsource henough
      simp only [henough, if_false] at h
      rcases hopen : openUpTo (sources.openOne source) (count - (w₁.heldFor s name).length) w₁ with
        ⟨⟨opened, failure⟩, w₂⟩
      rw [hopen] at h
      cases failure with
      | some cause =>
          obtain ⟨hfewer, hturn⟩ := openUpTo_some hopen
          simp only [closeAll_eq] at h
          cases h
          exact .rolledBack hname hcount hsource hfewer hturn rfl
      | none =>
          obtain ⟨hlen, hturn⟩ := openUpTo_none hopen
          cases h
          exact .opened hname hcount hsource (by omega) hlen (by rw [hlen]; exact hturn)

/-- A release takes out what is held and attempts to close it all. -/
theorem release_eq (w : World ε) :
    World.release sources call s w =
      (let holdings := (w.session s).holdings
        let closing := inTurn ((holdings.entries.flatMap Prod.snd).map sources.closeOne)
          (w.drain call s)
        (if failures closing.1 = 0 then .ok ()
          else .error (.releaseFailed (failures closing.1) holdings.size), closing.2)) := by
  simp only [World.release, Action.bind_apply, Action.get_apply, Action.modify_apply,
    Action.lift_apply, closeAll_eq]
  by_cases h : failures (inTurn (((w.session s).holdings.entries.flatMap Prod.snd).map
      sources.closeOne) (w.drain call s)).1 = 0
  · simp only [h, ne_eq, not_true_eq_false, if_true, if_false]
    rfl
  · simp only [h, ne_eq, not_false_eq_true, if_true, if_false]
    rfl

end Acquisitions

end SessionBroker
