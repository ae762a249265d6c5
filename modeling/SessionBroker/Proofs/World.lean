import SessionBroker.Proofs.Log

/-!
# Worlds after a change

What each change of the world leaves in the log, in the sessions and among the questions.
-/

namespace SessionBroker

namespace World

variable {ε : Type}

/-- A step begins: it takes a number. -/
def began (w : World ε) (call : Option Call) : World ε :=
  { w with calls := w.calls + 1 }.record w.calls (.begun call)

@[simp]
theorem env_ask (w : World ε) (call : Nat) (q : Question) : (w.ask call q).env = w.env := rfl

/-- A call asks questions. -/
def asking (w : World ε) (call : Nat) (qs : List Question) : World ε :=
  { w with inquiries := w.inquiries ++ (qs.map (Inquiry.mk call)).toArray }

theorem asking_nil (w : World ε) (call : Nat) : w.asking call [] = w := by
  simp [asking]

theorem asking_asking (w : World ε) (call : Nat) (qs qs' : List Question) :
    (w.asking call qs).asking call qs' = w.asking call (qs ++ qs') := by
  simp [asking]

theorem ask_eq_asking (w : World ε) (call : Nat) (q : Question) :
    w.ask call q = w.asking call [q] := by
  simp [ask, asking]

theorem session_congr {w u : World ε} (h : u.sessions = w.sessions) (s : Nat) :
    u.session s = w.session s := by
  rw [session, session, h]

theorem session_updateSession (w : World ε) (s t : Nat) (f : Session → Session) :
    (w.updateSession s f).session t =
      if s = t ∧ s < w.sessions.length then f (w.session s) else w.session t := by
  by_cases hst : s = t
  · subst hst
    by_cases hs : s < w.sessions.length
    · simp [session, updateSession, hs]
    · simp [session, updateSession, hs]
  · simp [session, updateSession, hst]

theorem holdings_keep {w : World ε} {s : Nat} (hs : s < w.sessions.length) (call : Nat)
    (name : String) (batch : List Connection) (t : Nat) :
    ((w.keep call s name batch).session t).holdings =
      (Event.kept s name batch).onHeld t (w.session t).holdings := by
  show ((w.updateSession s _).session t).holdings = _
  rw [session_updateSession]
  by_cases hst : s = t
  · subst hst
    simp [hs, Event.onHeld]
  · simp [hst, Event.onHeld]

theorem holdings_drain {w : World ε} {s : Nat} (hs : s < w.sessions.length) (call : Nat)
    (entries : List (String × List Connection)) (t : Nat) :
    ((w.drain call s).session t).holdings =
      (Event.drained s entries).onHeld t (w.session t).holdings := by
  show ((w.updateSession s _).session t).holdings = _
  rw [session_updateSession]
  by_cases hst : s = t
  · subst hst
    simp [hs, Event.onHeld]
  · simp [hst, Event.onHeld]

theorem holdings_keepRoutes (w : World ε) (s t : Nat) (routes : Routes) :
    ((keepRoutes s routes w).session t).holdings = (w.session t).holdings := by
  show ((w.updateSession s _).session t).holdings = _
  rw [session_updateSession]
  split
  next h => rw [h.1]
  next => rfl

theorem session_addSession (w : World ε) (schema : String) (t : Nat) :
    (w.addSession schema).session t =
      if t = w.sessions.length then .new schema else w.session t := by
  simp only [session, addSession]
  rcases Nat.lt_trichotomy t w.sessions.length with h | h | h
  · rw [List.getElem?_append_left h, if_neg (Nat.ne_of_lt h)]
  · simp [h]
  · rw [if_neg (Nat.ne_of_gt h), List.getElem?_eq_none, List.getElem?_eq_none]
    · omega
    · simp
      omega

/-- A session that is still to come is a new one. -/
theorem session_length (w : World ε) : w.session w.sessions.length = default := by
  simp [session]

theorem holdings_addSession (w : World ε) (schema : String) (t : Nat) :
    ((w.addSession schema).session t).holdings = (w.session t).holdings := by
  rw [session_addSession]
  split
  next h =>
    rw [h, session_length]
    rfl
  next => rfl

@[simp]
theorem log_record (w : World ε) (call : Nat) (e : Event) :
    (w.record call e).log.toList = w.log.toList ++ [⟨call, e⟩] := by
  simp [record]

@[simp]
theorem log_keep (w : World ε) (call s : Nat) (name : String) (batch : List Connection) :
    (w.keep call s name batch).log.toList = w.log.toList ++ [⟨call, .kept s name batch⟩] :=
  log_record _ call _

@[simp]
theorem log_drain (w : World ε) (call s : Nat) :
    (w.drain call s).log.toList =
      w.log.toList ++ [⟨call, .drained s (w.session s).holdings.entries⟩] :=
  log_record _ call _

@[simp]
theorem length_updateSession (w : World ε) (s : Nat) (f : Session → Session) :
    (w.updateSession s f).sessions.length = w.sessions.length := by
  simp [updateSession]

@[simp]
theorem length_keep (w : World ε) (call s : Nat) (name : String) (batch : List Connection) :
    (w.keep call s name batch).sessions.length = w.sessions.length :=
  length_updateSession w s _

@[simp]
theorem length_drain (w : World ε) (call s : Nat) :
    (w.drain call s).sessions.length = w.sessions.length :=
  length_updateSession w s _

@[simp]
theorem length_keepRoutes (w : World ε) (s : Nat) (routes : Routes) :
    (keepRoutes s routes w).sessions.length = w.sessions.length :=
  length_updateSession w s _

end World

end SessionBroker
