import SessionBroker.Proofs.History

/-!
# Finished calls

What a call opened, kept, took out and attempted to close, read off its script, and the log of a
run between two steps, in which every call is finished. `Finished` names the beginning, the own
events and the end of a call; the lemmas below find the call of an event and say that there is
one beginning and one end.
-/

namespace SessionBroker

/-! ## Events of attempts -/

/-- The connection of an attempt to close, at its beginning and at its end. -/
def Event.touches : Event → List Connection
  | .closing c | .closed c | .closeFailed c => [c]
  | _ => []

/-- Whether an event is the beginning or the end of a step. -/
def Event.isBound : Event → Bool
  | .begun _ | .ended _ _ => true
  | _ => false

/-- Whether an event is the beginning or the end of an attempt to open or to close a connection. -/
def Event.isAttempt : Event → Bool
  | .opening _ | .opened _ _ | .openFailed _ | .closing _ | .closed _ | .closeFailed _ => true
  | _ => false

section Events

variable {f : Event → List Connection} {looks : List Event}

theorem flatMap_lookups (hf : ∀ e : Event, e.isLookup = true → f e = [])
    (hlooks : ∀ e ∈ looks, e.isLookup = true) : looks.flatMap f = [] :=
  List.flatMap_eq_nil_iff.mpr fun e he => hf e (hlooks e he)

theorem opens_of_lookup (e : Event) (h : e.isLookup = true) : e.opens = [] := by
  cases e <;> first | rfl | cases h

theorem keeps_of_lookup (e : Event) (h : e.isLookup = true) : e.keeps = [] := by
  cases e <;> first | rfl | cases h

theorem drains_of_lookup (e : Event) (h : e.isLookup = true) : e.drains = [] := by
  cases e <;> first | rfl | cases h

theorem closes_of_lookup (e : Event) (h : e.isLookup = true) : e.closes = [] := by
  cases e <;> first | rfl | cases h

theorem touches_of_lookup (e : Event) (h : e.isLookup = true) : e.touches = [] := by
  cases e <;> first | rfl | cases h

theorem opens_of_bound (e : Event) (h : e.isBound = true) : e.opens = [] := by
  cases e <;> first | rfl | cases h

theorem keeps_of_bound (e : Event) (h : e.isBound = true) : e.keeps = [] := by
  cases e <;> first | rfl | cases h

theorem drains_of_bound (e : Event) (h : e.isBound = true) : e.drains = [] := by
  cases e <;> first | rfl | cases h

theorem drainsFrom_of_bound {s : Nat} (e : Event) (h : e.isBound = true) : e.drainsFrom s = [] := by
  cases e <;> first | rfl | cases h

theorem closes_of_bound (e : Event) (h : e.isBound = true) : e.closes = [] := by
  cases e <;> first | rfl | cases h

theorem touches_of_bound (e : Event) (h : e.isBound = true) : e.touches = [] := by
  cases e <;> first | rfl | cases h

theorem isBound_of_lookup (e : Event) (h : e.isLookup = true) : e.isBound = false := by
  cases e <;> first | rfl | cases h

theorem mem_openEvents {source : SourceId} {r : Except Error Connection} {e : Event}
    (h : e ∈ openEvents source r) :
    e = .opening source ∨ (∃ c, e = .opened source c) ∨ e = .openFailed source := by
  cases r with
  | ok c =>
      simp only [openEvents, List.mem_cons, List.not_mem_nil, or_false] at h
      exact h.imp_right fun h => .inl ⟨c, h⟩
  | error err =>
      simp only [openEvents, List.mem_cons, List.not_mem_nil, or_false] at h
      exact h.imp_right .inr

theorem mem_openingEvents {source : SourceId} {opened : List Connection} {e : Event}
    (h : e ∈ openingEvents source opened) : e = .opening source ∨ ∃ c, e = .opened source c := by
  obtain ⟨c, -, he⟩ := List.mem_flatMap.mp h
  simp only [openEvents, List.mem_cons, List.not_mem_nil, or_false] at he
  exact he.imp_right fun he => ⟨c, he⟩

theorem mem_closeEvents {c : Connection} {r : Except Error Unit} {e : Event}
    (h : e ∈ closeEvents c r) : e = .closing c ∨ e = .closed c ∨ e = .closeFailed c := by
  cases r with
  | ok u =>
      simp only [closeEvents, List.mem_cons, List.not_mem_nil, or_false] at h
      exact h.imp_right .inl
  | error err =>
      simp only [closeEvents, List.mem_cons, List.not_mem_nil, or_false] at h
      exact h.imp_right .inr

theorem mem_closingEvents {cs : List Connection} {rs : List (Except Error Unit)} {e : Event}
    (h : e ∈ closingEvents cs rs) : ∃ c, e = .closing c ∨ e = .closed c ∨ e = .closeFailed c := by
  induction cs generalizing rs with
  | nil => simp [closingEvents] at h
  | cons c cs ih =>
      cases rs with
      | nil => simp [closingEvents] at h
      | cons r rs => exact (List.mem_append.mp h).elim (fun h => ⟨c, mem_closeEvents h⟩) ih

theorem attempt_of_opening {source : SourceId} {opened : List Connection} {e : Event}
    (h : e ∈ openingEvents source opened) : e.isAttempt = true := by
  rcases mem_openingEvents h with rfl | ⟨c, rfl⟩ <;> rfl

theorem attempt_of_closing {cs : List Connection} {rs : List (Except Error Unit)} {e : Event}
    (h : e ∈ closingEvents cs rs) : e.isAttempt = true := by
  rcases mem_closingEvents h with ⟨c, rfl | rfl | rfl⟩ <;> rfl

/-- Attempts that open give one list for each connection. -/
theorem flatMap_openingEvents {g : Connection → List Connection} {source : SourceId}
    (hf : ∀ c, (openEvents source (.ok c)).flatMap f = g c) (opened : List Connection) :
    (openingEvents source opened).flatMap f = opened.flatMap g := by
  induction opened with
  | nil => rfl
  | cons c cs ih =>
      rw [openingEvents, List.flatMap_cons, List.flatMap_append, hf, ← openingEvents, ih,
        List.flatMap_cons]

theorem flatMap_openingEvents_nil {source : SourceId}
    (hf : ∀ c, (openEvents source (.ok c)).flatMap f = []) (opened : List Connection) :
    (openingEvents source opened).flatMap f = [] := by
  rw [flatMap_openingEvents (g := fun _ => []) hf]
  simp

theorem opens_openingEvents (source : SourceId) (opened : List Connection) :
    (openingEvents source opened).flatMap Event.opens = opened := by
  rw [flatMap_openingEvents (g := fun c => [c]) fun _ => rfl]
  simp

theorem keeps_openingEvents (source : SourceId) (opened : List Connection) :
    (openingEvents source opened).flatMap Event.keeps = [] :=
  flatMap_openingEvents_nil (fun _ => rfl) opened

theorem drains_openingEvents (source : SourceId) (opened : List Connection) :
    (openingEvents source opened).flatMap Event.drains = [] :=
  flatMap_openingEvents_nil (fun _ => rfl) opened

theorem closes_openingEvents (source : SourceId) (opened : List Connection) :
    (openingEvents source opened).flatMap Event.closes = [] :=
  flatMap_openingEvents_nil (fun _ => rfl) opened

theorem touches_openingEvents (source : SourceId) (opened : List Connection) :
    (openingEvents source opened).flatMap Event.touches = [] :=
  flatMap_openingEvents_nil (fun _ => rfl) opened

/-- Attempts to close give one list for each connection, whatever they come to. -/
theorem flatMap_closingEvents {g : Connection → List Connection}
    (hf : ∀ c r, (closeEvents c r).flatMap f = g c) {cs : List Connection}
    {rs : List (Except Error Unit)} (hrs : rs.length = cs.length) :
    (closingEvents cs rs).flatMap f = cs.flatMap g := by
  induction cs generalizing rs with
  | nil => rfl
  | cons c cs ih =>
      cases rs with
      | nil => cases hrs
      | cons r rs =>
          rw [closingEvents, List.flatMap_append, hf, ih (Nat.succ.inj hrs), List.flatMap_cons]

theorem flatMap_closingEvents_nil (hf : ∀ c r, (closeEvents c r).flatMap f = [])
    {cs : List Connection} {rs : List (Except Error Unit)} (hrs : rs.length = cs.length) :
    (closingEvents cs rs).flatMap f = [] := by
  rw [flatMap_closingEvents (g := fun _ => []) hf hrs]
  simp

theorem closes_closingEvents {cs : List Connection} {rs : List (Except Error Unit)}
    (hrs : rs.length = cs.length) : (closingEvents cs rs).flatMap Event.closes = cs := by
  rw [flatMap_closingEvents (g := fun c => [c]) (fun c r => by cases r <;> rfl) hrs]
  simp

theorem opens_closingEvents {cs : List Connection} {rs : List (Except Error Unit)}
    (hrs : rs.length = cs.length) : (closingEvents cs rs).flatMap Event.opens = [] :=
  flatMap_closingEvents_nil (fun c r => by cases r <;> rfl) hrs

theorem keeps_closingEvents {cs : List Connection} {rs : List (Except Error Unit)}
    (hrs : rs.length = cs.length) : (closingEvents cs rs).flatMap Event.keeps = [] :=
  flatMap_closingEvents_nil (fun c r => by cases r <;> rfl) hrs

theorem drains_closingEvents {cs : List Connection} {rs : List (Except Error Unit)}
    (hrs : rs.length = cs.length) : (closingEvents cs rs).flatMap Event.drains = [] :=
  flatMap_closingEvents_nil (fun c r => by cases r <;> rfl) hrs

theorem mem_touches_closingEvents {cs : List Connection} {rs : List (Except Error Unit)}
    (hrs : rs.length = cs.length) {c : Connection} :
    c ∈ (closingEvents cs rs).flatMap Event.touches ↔ c ∈ cs := by
  rw [flatMap_closingEvents (g := fun c => [c, c]) (fun c r => by cases r <;> rfl) hrs]
  simp

end Events

/-! ## What a script does with connections -/

/-- What a call opened, kept, took out and attempted to close, and what it came to. -/
inductive Tally : Option Call → (opens keeps drains closes : List Connection) → Outcome → Prop where
  | idle (call : Option Call) (o : Outcome) : Tally call [] [] [] [] o
  | closed (c : Connection) (o : Outcome) : Tally none [] [] [] [c] o
  | rolledBack (s count : Nat) (name : String) (mode : AcquisitionMode) (opened : List Connection)
      (e : Error) : Tally (some (.acquire s name count mode)) opened [] [] opened (.failed e)
  | opened (s count : Nat) (name : String) (mode : AcquisitionMode)
      (reused opened : List Connection) :
      Tally (some (.acquire s name count mode)) opened (if mode.keepsNew then opened else []) [] []
        (.answered (.connections (reused ++ opened)))
  | released (s : Nat) (cs : List Connection) (o : Outcome) :
      Tally (some (.release s)) [] [] cs cs o

namespace Tally

variable {call : Option Call} {opens keeps drains closes : List Connection} {o : Outcome}
  {c : Connection}

/-- Only connections that a call opened itself join a session. -/
theorem count_keeps_le (h : Tally call opens keeps drains closes o) (c : Connection) :
    keeps.count c ≤ opens.count c := by
  cases h with
  | opened _ _ _ mode => cases mode <;> simp [AcquisitionMode.keepsNew]
  | _ => simp

/-- Only connections that a call opened itself or took out does it attempt to close. -/
theorem closes_cases (h : Tally call opens keeps drains closes o) (hcall : call.isSome)
    (hc : c ∈ closes) : (c ∈ opens ∧ keeps = [] ∧ ∃ e, o = .failed e) ∨ c ∈ drains := by
  cases h with
  | closed => cases hcall
  | rolledBack => exact .inl ⟨hc, rfl, _, rfl⟩
  | released => exact .inr hc
  | _ => cases hc

/-- A call that opens is an acquisition: it fails and attempts to close all it opened, or it
answers with all of it and keeps all or nothing. -/
theorem opens_cases (h : Tally call opens keeps drains closes o) (hc : c ∈ opens) :
    ∃ s name count mode, call = some (.acquire s name count mode) ∧
      ((∃ e, o = .failed e ∧ keeps = [] ∧ closes = opens) ∨
        ∃ reused, o = .answered (.connections (reused ++ opens)) ∧
          keeps = if mode.keepsNew then opens else []) := by
  cases h with
  | rolledBack s count name mode opened e =>
      exact ⟨s, name, count, mode, rfl, .inl ⟨e, rfl, rfl, rfl⟩⟩
  | opened s count name mode reused opened =>
      exact ⟨s, name, count, mode, rfl, .inr ⟨reused, rfl, rfl⟩⟩
  | _ => cases hc

/-- A call that keeps is an acquisition that was to keep what it opened, and succeeded. -/
theorem keeps_cases (h : Tally call opens keeps drains closes o) (hc : c ∈ keeps) :
    ∃ s name count cs, call = some (.acquire s name count .memoryStrictly) ∧
      o = .answered (.connections cs) := by
  cases h with
  | opened s count name mode reused opened =>
      cases mode with
      | memoryStrictly => exact ⟨s, name, count, _, rfl, rfl⟩
      | connectionStrictly => cases hc
  | _ => cases hc

/-- Only a release takes connections out. -/
theorem drains_cases (h : Tally call opens keeps drains closes o) (hc : c ∈ drains) :
    ∃ s, call = some (.release s) := by
  cases h with
  | released s => exact ⟨s, rfl⟩
  | _ => cases hc

end Tally

namespace Script

variable {call : Option Call} {body : List Event} {o : Outcome} {c : Connection}

theorem tally_of_lookups (hlooks : ∀ e ∈ body, e.isLookup = true) (call : Option Call)
    (o : Outcome) :
    Tally call (body.flatMap Event.opens) (body.flatMap Event.keeps) (body.flatMap Event.drains)
      (body.flatMap Event.closes) o := by
  rw [flatMap_lookups opens_of_lookup hlooks, flatMap_lookups keeps_of_lookup hlooks,
    flatMap_lookups drains_of_lookup hlooks, flatMap_lookups closes_of_lookup hlooks]
  exact .idle call o

theorem tally (h : Script call body o) :
    Tally call (body.flatMap Event.opens) (body.flatMap Event.keeps) (body.flatMap Event.drains)
      (body.flatMap Event.closes) o := by
  cases h with
  | refused call => exact .idle call _
  | outside a => exact .idle none _
  | closed c r o => cases r <;> exact .closed c o
  | inspected _ hlooks o => exact tally_of_lookups hlooks _ o
  | unresolved hlooks e => exact tally_of_lookups hlooks _ _
  | reused hlooks cs => exact tally_of_lookups hlooks _ _
  | @rolledBack s count name mode _ hlooks source opened cause _ hrs =>
      simp only [List.flatMap_append, flatMap_lookups opens_of_lookup hlooks,
        flatMap_lookups keeps_of_lookup hlooks, flatMap_lookups drains_of_lookup hlooks,
        flatMap_lookups closes_of_lookup hlooks, opens_openingEvents, keeps_openingEvents,
        drains_openingEvents, closes_openingEvents, opens_closingEvents hrs,
        keeps_closingEvents hrs, drains_closingEvents hrs, closes_closingEvents hrs]
      simpa [openEvents, Event.opens, Event.keeps, Event.drains, Event.closes] using
        Tally.rolledBack s count name mode opened (.acquisitionFailed count opened.length cause)
  | @opened s count name mode _ hlooks source reused opened =>
      simp only [List.flatMap_append, flatMap_lookups opens_of_lookup hlooks,
        flatMap_lookups keeps_of_lookup hlooks, flatMap_lookups drains_of_lookup hlooks,
        flatMap_lookups closes_of_lookup hlooks, opens_openingEvents, keeps_openingEvents,
        drains_openingEvents, closes_openingEvents]
      have htally := Tally.opened s count name mode reused opened
      cases mode <;> simpa [AcquisitionMode.keepsNew, Event.opens, Event.keeps, Event.drains,
        Event.closes] using htally
  | @released s entries _ hrs o =>
      simp only [List.flatMap_cons, opens_closingEvents hrs, keeps_closingEvents hrs,
        drains_closingEvents hrs, closes_closingEvents hrs]
      simpa [Event.opens, Event.keeps, Event.drains, Event.closes] using
        Tally.released s (entries.flatMap Prod.snd) o

/-- A release takes out of the session that it is made on, and attempts to close all of it. -/
theorem drained (h : Script call body o) {s : Nat} {entries : List (String × List Connection)}
    (he : .drained s entries ∈ body) (hc : c ∈ entries.flatMap Prod.snd) :
    call = some (.release s) ∧ body.flatMap (Event.drainsFrom s) = entries.flatMap Prod.snd ∧
      body.flatMap Event.closes = entries.flatMap Prod.snd := by
  have hdrains : c ∈ body.flatMap Event.drains := List.mem_flatMap.mpr ⟨_, he, hc⟩
  obtain ⟨t, rfl⟩ := h.tally.drains_cases hdrains
  cases h with
  | refused => cases he
  | inspected hcall => cases hcall
  | released entries' hrs =>
      rcases List.mem_cons.mp he with heq | he
      · cases heq
        refine ⟨rfl, ?_, ?_⟩
        · have hclosing : (closingEvents _ _).flatMap (Event.drainsFrom s) = [] :=
            flatMap_closingEvents_nil (fun c r => by cases r <;> rfl) hrs
          rw [List.flatMap_cons, hclosing]
          simp [Event.drainsFrom]
        · rw [List.flatMap_cons, closes_closingEvents hrs]
          rfl
      · have hnone : c ∈ (closingEvents _ _).flatMap Event.drains :=
          List.mem_flatMap.mpr ⟨_, he, hc⟩
        rw [drains_closingEvents hrs] at hnone
        cases hnone

/-- An attempt to close that ended is one that began. -/
theorem closes_of_touches (h : Script call body o) (hc : c ∈ body.flatMap Event.touches) :
    c ∈ body.flatMap Event.closes := by
  cases h with
  | closed d r o => cases r <;> simpa [closeEvents, Event.touches, Event.closes] using hc
  | inspected _ hlooks o =>
      rw [flatMap_lookups touches_of_lookup hlooks] at hc
      cases hc
  | unresolved hlooks err =>
      rw [flatMap_lookups touches_of_lookup hlooks] at hc
      cases hc
  | reused hlooks cs =>
      rw [flatMap_lookups touches_of_lookup hlooks] at hc
      cases hc
  | rolledBack hlooks source opened cause hrs =>
      have hclosing : ∀ {f : Event → List Connection}, f (.opening source) = [] →
          f (.openFailed source) = [] → (openEvents source (.error cause)).flatMap f = [] := by
        intro f hopening hfailed
        simp [openEvents, hopening, hfailed]
      simp only [List.flatMap_append, flatMap_lookups touches_of_lookup hlooks,
        touches_openingEvents, hclosing (f := Event.touches) rfl rfl, List.nil_append,
        mem_touches_closingEvents hrs] at hc
      simp only [List.flatMap_append, flatMap_lookups closes_of_lookup hlooks,
        closes_openingEvents, hclosing (f := Event.closes) rfl rfl, closes_closingEvents hrs,
        List.nil_append]
      exact hc
  | @opened _ _ _ mode _ hlooks source reused opened =>
      simp only [List.flatMap_append, flatMap_lookups touches_of_lookup hlooks,
        touches_openingEvents, List.nil_append] at hc
      cases mode <;> simp [AcquisitionMode.keepsNew, Event.touches] at hc
  | released entries hrs o =>
      rw [List.flatMap_cons, List.mem_append, mem_touches_closingEvents hrs] at hc
      rw [List.flatMap_cons, List.mem_append, closes_closingEvents hrs]
      exact hc.imp_left fun hc => by cases hc
  | _ => cases hc

/-- What a release does first is to take out. -/
theorem drained_first (h : Script call body o) (hc : c ∈ body.flatMap Event.drains) :
    ∃ s entries rest, body = .drained s entries :: rest ∧ c ∈ entries.flatMap Prod.snd := by
  obtain ⟨t, rfl⟩ := h.tally.drains_cases hc
  cases h with
  | refused => cases hc
  | inspected hcall => cases hcall
  | released entries hrs =>
      refine ⟨t, entries, _, rfl, ?_⟩
      rw [List.flatMap_cons, drains_closingEvents hrs, List.append_nil] at hc
      exact hc

/-- What an acquisition does last is to keep what it opened. -/
theorem opened_before_kept (h : Script call body o) {s : Nat} {name : String}
    {batch : List Connection} {pre post : List Event}
    (hbody : body = pre ++ .kept s name batch :: post) (hc : c ∈ batch) :
    c ∈ pre.flatMap Event.opens := by
  have hkept : c ∈ body.flatMap Event.keeps :=
    List.mem_flatMap.mpr ⟨.kept s name batch, by simp [hbody], hc⟩
  obtain ⟨s', name', count, cs, rfl, rfl⟩ := h.tally.keeps_cases hkept
  cases h with
  | inspected hcall => cases hcall
  | reused hlooks =>
      rw [flatMap_lookups keeps_of_lookup hlooks] at hkept
      cases hkept
  | @opened _ _ _ _ looks hlooks source reused opened =>
      have hopens : (looks ++ openingEvents source opened).flatMap Event.opens = opened := by
        rw [List.flatMap_append, flatMap_lookups opens_of_lookup hlooks, opens_openingEvents]
        rfl
      have hkeeps : (looks ++ openingEvents source opened).flatMap Event.keeps = [] := by
        rw [List.flatMap_append, flatMap_lookups keeps_of_lookup hlooks, keeps_openingEvents]
        rfl
      have hlast : (looks ++ openingEvents source opened) ++ [.kept s' name' opened] =
          pre ++ .kept s name batch :: post := by
        rw [List.append_assoc]
        exact hbody
      rcases split_concat hlast with ⟨mid, hmid⟩ | ⟨rfl, heq⟩
      · have hnone : c ∈ (looks ++ openingEvents source opened).flatMap Event.keeps :=
          List.mem_flatMap.mpr ⟨.kept s name batch, by simp [hmid], hc⟩
        rw [hkeeps] at hnone
        cases hnone
      · cases heq
        rwa [hopens]

/-- A call looks up, attempts to open and to close, keeps what it acquired and takes out what it
releases. -/
theorem mem_cases (h : Script call body o) {e : Event} (he : e ∈ body) :
    e.isLookup = true ∨ e.isAttempt = true ∨
      (∃ s name count batch, e = .kept s name batch ∧
        call = some (.acquire s name count .memoryStrictly)) ∨
      ∃ s entries, e = .drained s entries ∧ call = some (.release s) := by
  cases h with
  | refused => cases he
  | outside => cases he
  | closed c r => rcases mem_closeEvents he with rfl | rfl | rfl <;> exact .inr (.inl rfl)
  | inspected _ hlooks => exact .inl (hlooks e he)
  | unresolved hlooks => exact .inl (hlooks e he)
  | reused hlooks => exact .inl (hlooks e he)
  | rolledBack hlooks source opened cause =>
      rcases List.mem_append.mp he with he | he
      · exact .inl (hlooks e he)
      rcases List.mem_append.mp he with he | he
      · refine .inr (.inl ((List.mem_append.mp he).elim attempt_of_opening fun he => ?_))
        rcases mem_openEvents he with rfl | ⟨c, rfl⟩ | rfl <;> rfl
      · exact .inr (.inl (attempt_of_closing he))
  | @opened _ _ _ mode _ hlooks =>
      rcases List.mem_append.mp he with he | he
      · exact .inl (hlooks e he)
      rcases List.mem_append.mp he with he | he
      · exact .inr (.inl (attempt_of_opening he))
      cases mode with
      | memoryStrictly =>
          cases List.mem_singleton.mp he
          exact .inr (.inr (.inl ⟨_, _, _, _, rfl, rfl⟩))
      | connectionStrictly => cases he
  | released entries =>
      rcases List.mem_cons.mp he with rfl | he
      · exact .inr (.inr (.inr ⟨_, entries, rfl, rfl⟩))
      · exact .inr (.inl (attempt_of_closing he))

/-- What joins a session joins under the name that was asked for. -/
theorem acquires_of_kept (h : Script call body o) {s : Nat} {name : String}
    {batch : List Connection} (he : .kept s name batch ∈ body) :
    ∃ count, call = some (.acquire s name count .memoryStrictly) := by
  rcases h.mem_cases he with hlook | hattempt | ⟨s', name', count, batch', heq, hcall⟩ |
    ⟨s', entries, heq, -⟩
  · cases hlook
  · cases hattempt
  · cases heq
    exact ⟨count, hcall⟩
  · cases heq

theorem isBound_of_mem (h : Script call body o) : ∀ e ∈ body, e.isBound = false := by
  intro e he
  rcases h.mem_cases he with hlook | hattempt | ⟨s, name, count, batch, rfl, -⟩ |
    ⟨s, entries, rfl, -⟩
  · exact isBound_of_lookup e hlook
  · cases e <;> first | rfl | cases hattempt
  · rfl
  · rfl

end Script

/-! ## Finished logs -/

/-- What the log shows of a finished call. -/
structure Transcript (es : List Entry) (n : Nat) (call : Option Call) (body : List Event)
    (o : Outcome) (view : Option View) : Prop where
  events_eq : eventsOf n es = .begun call :: (body ++ [.ended o view])
  script : Script call body o
  sourced : call.isSome → ∀ cs, o = .answered (.connections cs) → ∀ c ∈ cs,
    c ∈ body.flatMap Event.opens ∨ c ∈ gather Event.keeps es
  asked : ∀ s, call = some (.isValid s) →
    o = .refused ∨ ∃ v, view = some v ∧ o = .answered (.flag v.valid)

namespace Transcript

variable {es : List Entry} {n : Nat} {call call' : Option Call} {body : List Event}
  {o o' : Outcome} {view view' : Option View}

theorem mem_iff (h : Transcript es n call body o view) {e : Event} :
    ⟨n, e⟩ ∈ es ↔ e = .begun call ∨ e ∈ body ∨ e = .ended o view := by
  rw [← mem_eventsOf, h.events_eq, List.mem_cons, List.mem_append, List.mem_singleton]

theorem mem_body (h : Transcript es n call body o view) {e : Event} (hbound : e.isBound = false) :
    ⟨n, e⟩ ∈ es ↔ e ∈ body := by
  rw [h.mem_iff]
  constructor
  · rintro (rfl | he | rfl)
    · cases hbound
    · exact he
    · cases hbound
  · exact fun he => .inr (.inl he)

/-- The events of a call before one of its own. -/
theorem split (h : Transcript es n call body o view) {pre post : List Entry} {e : Event}
    (heq : es = pre ++ ⟨n, e⟩ :: post) (hbound : e.isBound = false) :
    ∃ before after, body = before ++ e :: after ∧ eventsOf n pre = .begun call :: before := by
  have hevents : .begun call :: (body ++ [.ended o view]) =
      eventsOf n pre ++ e :: eventsOf n post := by
    rw [← h.events_eq, heq, eventsOf_append, eventsOf_cons_self]
  rcases hpre : eventsOf n pre with _ | ⟨x, before⟩
  · rw [hpre] at hevents
    rw [← (List.cons.inj hevents).1] at hbound
    cases hbound
  · rw [hpre] at hevents
    obtain ⟨rfl, hbody⟩ := List.cons.inj hevents
    rcases split_concat hbody with ⟨after, rfl⟩ | ⟨-, rfl⟩
    · exact ⟨before, after, rfl, rfl⟩
    · cases hbound

theorem begun_eq (h : Transcript es n call body o view) (hbegun : ⟨n, .begun call'⟩ ∈ es) :
    call' = call := by
  rcases h.mem_iff.mp hbegun with heq | he | heq
  · exact Event.begun.inj heq
  · cases h.script.isBound_of_mem _ he
  · cases heq

theorem ended_eq (h : Transcript es n call body o view) (hended : ⟨n, .ended o' view'⟩ ∈ es) :
    o' = o ∧ view' = view := by
  rcases h.mem_iff.mp hended with heq | he | heq
  · cases heq
  · cases h.script.isBound_of_mem _ he
  · exact Event.ended.inj heq

/-- A piece of the log from the beginning to the end of a call has all the events of the call. -/
theorem eventsOf_piece {first piece last : List Entry} {body' : List Event}
    (h : Transcript (first ++ (piece ++ last)) n call body o view)
    (hpiece : eventsOf n piece = .begun call' :: (body' ++ [.ended o' view'])) :
    eventsOf n (first ++ (piece ++ last)) = eventsOf n piece := by
  have hevents := h.events_eq
  rw [eventsOf_append, eventsOf_append, hpiece] at hevents ⊢
  have hbegun : eventsOf n first = [] := by
    cases hfirst : eventsOf n first with
    | nil => rfl
    | cons e before =>
        rw [hfirst, List.cons_append, List.cons_append] at hevents
        rcases split_concat (List.cons.inj hevents).2.symm with ⟨mid, rfl⟩ | ⟨-, hends⟩
        · cases h.script.isBound_of_mem (.begun call') (by simp)
        · cases hends
  rw [hbegun, List.nil_append] at hevents ⊢
  have hends : body' ++ .ended o' view' :: eventsOf n last = body ++ [.ended o view] := by
    simpa using (List.cons.inj hevents).2
  rcases split_concat hends.symm with ⟨mid, rfl⟩ | ⟨rfl, -⟩
  · cases h.script.isBound_of_mem (.ended o' view') (by simp)
  · rw [(List.cons.inj (List.append_cancel_left hends)).2, List.append_nil]

/-- A call's connections of a kind are those in its script. -/
theorem flatMap_eq (h : Transcript es n call body o view) {f : Event → List Connection}
    (hf : ∀ e : Event, e.isBound = true → f e = []) : (eventsOf n es).flatMap f = body.flatMap f := by
  rw [h.events_eq, List.flatMap_cons, List.flatMap_append, List.flatMap_cons, hf _ rfl,
    hf (.ended o view) rfl]
  simp

theorem mem_flatMap (h : Transcript es n call body o view) {f : Event → List Connection}
    (hf : ∀ e : Event, e.isBound = true → f e = []) {c : Connection} :
    c ∈ body.flatMap f ↔ ∃ e, ⟨n, e⟩ ∈ es ∧ c ∈ f e := by
  rw [← h.flatMap_eq hf, mem_flatMap_eventsOf]

theorem exists_opened (h : Transcript es n call body o view) {c : Connection}
    (hc : c ∈ body.flatMap Event.opens) : ∃ source, ⟨n, .opened source c⟩ ∈ es := by
  obtain ⟨e, he, hc⟩ := (h.mem_flatMap opens_of_bound).mp hc
  cases e with
  | opened source d =>
      rw [List.mem_singleton.mp hc]
      exact ⟨source, he⟩
  | _ => cases hc

theorem exists_drained (h : Transcript es n call body o view) {c : Connection}
    (hc : c ∈ body.flatMap Event.drains) :
    ∃ s entries, ⟨n, .drained s entries⟩ ∈ es ∧ c ∈ entries.flatMap Prod.snd := by
  obtain ⟨e, he, hc⟩ := (h.mem_flatMap drains_of_bound).mp hc
  cases e with
  | drained s entries => exact ⟨s, entries, he, hc⟩
  | _ => cases hc

end Transcript

namespace World

variable {ε : Type}

/-- A world between two steps of a run. -/
def Settled (w : World ε) : Prop := ∃ env, Stretch none (.new env) w w.log.toList

theorem holdings_new (env : ε) (s : Nat) : ((World.new env).session s).holdings = .empty := rfl

variable {w : World ε} {s n : Nat}

namespace Settled

/-- What a session holds is what the log says. -/
theorem held_eq (h : w.Settled) (s : Nat) :
    (w.session s).holdings = replay s .empty w.log.toList := by
  obtain ⟨env, h⟩ := h
  rw [h.held_eq, holdings_new]

theorem honest (h : w.Settled) {pre post : List Entry} {e : Entry}
    (heq : w.log.toList = pre ++ e :: post) (s : Nat) :
    e.event.Honest s (replay s .empty pre) := by
  obtain ⟨env, h⟩ := h
  exact h.honest s pre e post heq

theorem transcript (h : w.Settled) {e : Event} (he : ⟨n, e⟩ ∈ w.log.toList) :
    ∃ call body o view, Transcript w.log.toList n call body o view := by
  obtain ⟨env, h⟩ := h
  have hn : n < w.calls := by
    rcases h.numbered _ he with hnone | hn
    · cases hnone
    · exact hn.2
  obtain ⟨call, body, o, view, hf⟩ := h.finished n (Nat.zero_le n) hn
  have hopens : (eventsOf n w.log.toList).flatMap Event.opens = body.flatMap Event.opens := by
    rw [hf.events_eq]
    simp [Event.opens]
  refine ⟨call, body, o, view, hf.events_eq, hf.script, fun hsome cs ho c hc => ?_, hf.asked⟩
  rcases hf.sourced hsome cs ho c hc with ho | hk | ⟨s, hs⟩
  · exact .inl (by rwa [hopens] at ho)
  · exact .inr hk
  · rw [holdings_new, Holdings.all_empty] at hs
    cases hs

/-- The ledger of a session in a world between two steps. -/
theorem count_held (h : w.Settled) (s : Nat) (c : Connection) :
    (w.session s).holdings.all.count c + (gather (Event.drainsFrom s) w.log.toList).count c =
      (gather (Event.keepsIn s) w.log.toList).count c := by
  have hledger := count_replay (fun pre e post heq => h.honest heq s) c
  rw [← h.held_eq] at hledger
  simpa using hledger

end Settled

end World

end SessionBroker
