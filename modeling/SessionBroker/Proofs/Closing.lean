import SessionBroker.Proofs.Views

/-!
# Closing on request

Surroundings in which connections are open when they are new, and become closed only when an
attempt to close them ends. In such surroundings what is closed has an attempt in the log; this
is a relation that all moves keep.
-/

namespace SessionBroker

namespace Surroundings

variable {ε : Type}

/-- A step that closes nothing, if it is no call. -/
def Quiet (k : Surroundings ε) (good : ε → List Connection → Prop) (step : Step ε) : Prop :=
  ∀ a, step = .outside a → ∀ env asked, good env asked →
    good (a env).2 asked ∧ ∀ c, k.isClosed (a env).2 c = true → k.isClosed env c = true

/-- Connections are open when they are new, and become closed only when an attempt to close
them ends. `good` is an invariant of the surroundings, given what was attempted to close so far:
a connection that was closed before it was opened need not be open when it is new. -/
structure ClosesOnRequest (k : Surroundings ε) (good : ε → List Connection → Prop) : Prop where
  mono : ∀ {env asked asked'}, asked ⊆ asked' → good env asked → good env asked'
  stirs : ∀ {env env' asked}, k.Stirs env env' → good env asked →
    good env' asked ∧ ∀ c, k.isClosed env' c = true → k.isClosed env c = true
  opens : ∀ {source r env env' asked}, k.finishOpen source env = (r, env') → good env asked →
    good env' asked ∧
      ∀ c, k.isClosed env' c = true → k.isClosed env c = true ∧ (r = .ok c → c ∈ asked)
  closes : ∀ {c r env env' asked}, k.finishClose c env = (r, env') → c ∈ asked →
    good env asked →
      good env' asked ∧ ∀ d, k.isClosed env' d = true → k.isClosed env d = true ∨ d = c
  cues : ∀ inner, k.Cues inner → k.Quiet good inner

/-- What is closed was attempted to close, unless it was never opened. -/
def ClosedOnRequest (k : Surroundings ε) (good : ε → List Connection → Prop) (env : ε)
    (es : List Entry) : Prop :=
  good env (gather Event.touches es) ∧ ∀ c, k.isClosed env c = true →
    c ∈ gather Event.touches es ∨ c ∉ gather Event.opens es

section Keeping

variable {k : Surroundings ε} {good : ε → List Connection → Prop} {env env' : ε}
  {es : List Entry}

/-- An event that opens nothing keeps it. -/
theorem ClosedOnRequest.record (hk : k.ClosesOnRequest good) (h : k.ClosedOnRequest good env es)
    {e : Entry} (hopens : e.event.opens = []) : k.ClosedOnRequest good env (es ++ [e]) := by
  refine ⟨hk.mono (by simp) h.1, fun c hc => ?_⟩
  rw [gather_append, gather_append, gather_cons, gather_cons, hopens]
  simpa using (h.2 c hc).imp_left .inl

theorem ClosedOnRequest.of_opened (hk : k.ClosesOnRequest good) (h : k.ClosedOnRequest good env es)
    {source : SourceId} {c : Connection} (hfinish : k.finishOpen source env = (.ok c, env'))
    (n : Nat) : k.ClosedOnRequest good env' (es ++ [⟨n, .opened source c⟩]) := by
  obtain ⟨hgood, hback⟩ := hk.opens hfinish h.1
  refine ⟨by simpa [Event.touches] using hgood, fun d hd => ?_⟩
  obtain ⟨hd, hasked⟩ := hback d hd
  by_cases hdc : d = c
  -- a new connection that is closed was attempted to close before it was opened
  · subst hdc
    exact .inl (by simpa [Event.touches] using hasked rfl)
  · simpa [Event.touches, Event.opens, hdc] using h.2 d hd

theorem ClosedOnRequest.of_closed (hk : k.ClosesOnRequest good) (h : k.ClosedOnRequest good env es)
    {c : Connection} {r : Except Error Unit} (hfinish : k.finishClose c env = (r, env')) {e : Entry}
    (hopens : e.event.opens = []) (htouches : e.event.touches = [c]) :
    k.ClosedOnRequest good env' (es ++ [e]) := by
  have hrecorded := h.record hk hopens
  have hasked : c ∈ gather Event.touches (es ++ [e]) := by simp [htouches]
  obtain ⟨hgood, hback⟩ := hk.closes hfinish hasked hrecorded.1
  refine ⟨hgood, fun d hd => ?_⟩
  rcases hback d hd with hd | rfl
  · exact hrecorded.2 d hd
  · exact .inl hasked

theorem keeps_of_quiet (hk : k.ClosesOnRequest good) {step : Step ε} (hstep : k.Quiet good step) :
    k.Keeps (k.ClosedOnRequest good) step where
  stirs := by
    intro env env' es hstir h
    obtain ⟨hgood, hback⟩ := hk.stirs hstir h.1
    exact ⟨hgood, fun c hc => h.2 c (hback c hc)⟩
  outside := by
    intro a env es heq h
    obtain ⟨hgood, hback⟩ := hstep _ heq _ _ h.1
    exact ⟨hgood, fun c hc => h.2 c (hback c hc)⟩
  opened := fun hfinish h => h.of_opened hk hfinish _
  openFailed := by
    intro n source err env env' es hfinish h
    obtain ⟨hgood, hback⟩ := hk.opens hfinish h.1
    have hclosed : k.ClosedOnRequest good env' es := ⟨hgood, fun c hc => h.2 c (hback c hc).1⟩
    exact hclosed.record hk rfl
  closed := fun hfinish h => h.of_closed hk hfinish rfl rfl
  closeFailed := fun hfinish h => h.of_closed hk hfinish rfl rfl
  recorded := fun hopens h => h.record hk hopens

end Keeping

end Surroundings

end SessionBroker
