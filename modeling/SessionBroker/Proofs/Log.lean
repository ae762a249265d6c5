import SessionBroker.Proofs.Holdings
import SessionBroker.Session.World

/-!
# Reading a log

What a stretch of a log says: which events one call caused itself and which questions it asked,
which connections were opened, kept, taken out and attempted to close, and what a session holds
after it. `replay` rebuilds a session's holdings from the batches that joined them and the drains,
so that a prefix of a log stands for a moment of a run, also for one inside unfinished calls. The
ledger of a session is `count_replay`: what joined is still held or was taken out.
-/

namespace SessionBroker

/-! ## Events -/

namespace Event

/-- The connection that an event opens. -/
def opens : Event → List Connection
  | .opened _ c => [c]
  | _ => []

/-- The connections that join a session's holdings. -/
def keeps : Event → List Connection
  | .kept _ _ batch => batch
  | _ => []

def keepsIn (s : Nat) : Event → List Connection
  | .kept t _ batch => if t = s then batch else []
  | _ => []

/-- The connections that are taken out of a session's holdings. -/
def drains : Event → List Connection
  | .drained _ entries => entries.flatMap Prod.snd
  | _ => []

def drainsFrom (s : Nat) : Event → List Connection
  | .drained t entries => if t = s then entries.flatMap Prod.snd else []
  | _ => []

/-- The connection that an attempt to close begins on. -/
def closes : Event → List Connection
  | .closing c => [c]
  | _ => []

/-- What a session holds after an event. -/
def onHeld (s : Nat) (h : Holdings Connection) : Event → Holdings Connection
  | .kept t name batch => if t = s then h.hold name batch else h
  | .drained t _ => if t = s then h.drain.2 else h
  | _ => h

end Event

/-! ## Moments of a list -/

section Moments

variable {α : Type} {xs ys pre post : List α} {x y : α}

/-- An element of two lists in a row stands in the first or in the second. -/
theorem split_append (h : xs ++ ys = pre ++ x :: post) :
    (∃ mid, xs = pre ++ x :: mid) ∨ ∃ mid, pre = xs ++ mid ∧ ys = mid ++ x :: post := by
  rcases List.append_eq_append_iff.mp h with ⟨mid, rfl, hys⟩ | ⟨mid, rfl, htail⟩
  · exact .inr ⟨mid, rfl, hys⟩
  · cases mid with
    | nil => exact .inr ⟨[], by simp, htail.symm⟩
    | cons z mid =>
        obtain ⟨rfl, -⟩ := List.cons.inj htail
        exact .inl ⟨mid, rfl⟩

theorem split_concat (h : xs ++ [y] = pre ++ x :: post) :
    (∃ mid, xs = pre ++ x :: mid) ∨ pre = xs ∧ x = y := by
  rcases split_append h with hxs | ⟨mid, rfl, hy⟩
  · exact .inl hxs
  · cases mid with
    | nil =>
        cases hy
        exact .inr ⟨List.append_nil xs, rfl⟩
    | cons z mid => simp at hy

end Moments

/-! ## Stretches of a log -/

/-- The events that a call caused itself. -/
def eventsOf (call : Nat) (entries : List Entry) : List Event :=
  (entries.filter fun e => e.call == call).map Entry.event

/-- The questions that a call asked itself. -/
def questionsOf (call : Nat) (inquiries : List Inquiry) : List Question :=
  (inquiries.filter fun i => i.call == call).map Inquiry.question

/-- The connections of a kind in a stretch of a log. -/
def gather (f : Event → List Connection) (entries : List Entry) : List Connection :=
  entries.flatMap fun e => f e.event

/-- What a session holds after a stretch of a log. -/
def replay (s : Nat) (h : Holdings Connection) (entries : List Entry) : Holdings Connection :=
  entries.foldl (fun h e => e.event.onHeld s h) h

section Stretches

variable {f : Event → List Connection} {s call : Nat} {c : Connection}

@[simp]
theorem eventsOf_append (call : Nat) (es es' : List Entry) :
    eventsOf call (es ++ es') = eventsOf call es ++ eventsOf call es' := by
  simp [eventsOf]

theorem eventsOf_cons_self (call : Nat) (e : Event) (es : List Entry) :
    eventsOf call (⟨call, e⟩ :: es) = e :: eventsOf call es := by
  simp [eventsOf]

theorem eventsOf_eq_nil {es : List Entry} (h : ∀ e ∈ es, e.call ≠ call) : eventsOf call es = [] := by
  rw [eventsOf, List.map_eq_nil_iff, List.filter_eq_nil_iff]
  intro e he
  simpa using h e he

theorem mem_eventsOf {e : Event} {es : List Entry} : e ∈ eventsOf call es ↔ ⟨call, e⟩ ∈ es := by
  simp only [eventsOf, List.mem_map, List.mem_filter, beq_iff_eq]
  constructor
  · rintro ⟨⟨n, e'⟩, ⟨hmem, rfl⟩, rfl⟩
    exact hmem
  · exact fun h => ⟨⟨call, e⟩, ⟨h, rfl⟩, rfl⟩

@[simp]
theorem questionsOf_append (call : Nat) (is is' : List Inquiry) :
    questionsOf call (is ++ is') = questionsOf call is ++ questionsOf call is' := by
  simp [questionsOf]

theorem questionsOf_eq_nil {is : List Inquiry} (h : ∀ i ∈ is, i.call ≠ call) :
    questionsOf call is = [] := by
  rw [questionsOf, List.map_eq_nil_iff, List.filter_eq_nil_iff]
  intro i hi
  simpa using h i hi

theorem questionsOf_own (call : Nat) (qs : List Question) :
    questionsOf call (qs.map (Inquiry.mk call)) = qs := by
  induction qs with
  | nil => rfl
  | cons q qs ih => simpa [questionsOf] using ih

@[simp]
theorem gather_append (f : Event → List Connection) (es es' : List Entry) :
    gather f (es ++ es') = gather f es ++ gather f es' := by
  simp [gather]

@[simp]
theorem gather_cons (f : Event → List Connection) (e : Entry) (es : List Entry) :
    gather f (e :: es) = f e.event ++ gather f es := by
  simp [gather]

@[simp]
theorem gather_nil (f : Event → List Connection) : gather f [] = [] := rfl

theorem mem_gather {es : List Entry} : c ∈ gather f es ↔ ∃ n e, ⟨n, e⟩ ∈ es ∧ c ∈ f e := by
  simp only [gather, List.mem_flatMap]
  constructor
  · rintro ⟨⟨n, e⟩, hmem, hc⟩
    exact ⟨n, e, hmem, hc⟩
  · rintro ⟨n, e, hmem, hc⟩
    exact ⟨⟨n, e⟩, hmem, hc⟩

theorem mem_flatMap_eventsOf {es : List Entry} :
    c ∈ (eventsOf call es).flatMap f ↔ ∃ e, ⟨call, e⟩ ∈ es ∧ c ∈ f e := by
  simp only [List.mem_flatMap, mem_eventsOf]

/-- If a connection occurs in the events of one call alone, these are all its occurrences. -/
theorem count_gather_of_call {es : List Entry} (h : ∀ e ∈ es, c ∈ f e.event → e.call = call) :
    (gather f es).count c = ((eventsOf call es).flatMap f).count c := by
  induction es with
  | nil => rfl
  | cons e es ih =>
      have ih := ih fun e' he' => h e' (List.mem_cons_of_mem e he')
      obtain ⟨n, ev⟩ := e
      rw [gather_cons, List.count_append, ih]
      by_cases hn : n = call
      · subst hn
        rw [eventsOf_cons_self, List.flatMap_cons, List.count_append]
      · have hzero : (f ev).count c = 0 :=
          List.count_eq_zero.mpr fun hc => hn (h ⟨n, ev⟩ List.mem_cons_self hc)
        have hskip : eventsOf call (⟨n, ev⟩ :: es) = eventsOf call es := by
          simp [eventsOf, hn]
        rw [hskip, hzero, Nat.zero_add]

theorem count_eventsOf_le (call : Nat) (es : List Entry) :
    ((eventsOf call es).flatMap f).count c ≤ (gather f es).count c := by
  induction es with
  | nil => exact Nat.le_refl _
  | cons e es ih =>
      obtain ⟨n, ev⟩ := e
      rw [gather_cons, List.count_append]
      by_cases hn : n = call
      · subst hn
        rw [eventsOf_cons_self, List.flatMap_cons, List.count_append]
        exact Nat.add_le_add_left ih _
      · have hskip : eventsOf call (⟨n, ev⟩ :: es) = eventsOf call es := by
          simp [eventsOf, hn]
        rw [hskip]
        exact Nat.le_trans ih (Nat.le_add_left _ _)

/-- A connection that occurs at most once has one call that caused it. -/
theorem caller_unique {es : List Entry} (hcount : (gather f es).count c ≤ 1) {n m : Nat}
    {e e' : Event} (he : ⟨n, e⟩ ∈ es) (hc : c ∈ f e) (he' : ⟨m, e'⟩ ∈ es) (hc' : c ∈ f e') :
    n = m := by
  obtain ⟨pre, post, rfl⟩ := List.append_of_mem he
  rw [gather_append, gather_cons, List.count_append, List.count_append] at hcount
  dsimp only at hcount
  have hpos : 0 < (f e).count c := List.count_pos_iff.mpr hc
  have hnot : ∀ part, (gather f part).count c = 0 → ⟨m, e'⟩ ∉ part := by
    intro part hzero hmem
    exact List.count_eq_zero.mp hzero (mem_gather.mpr ⟨m, e', hmem, hc'⟩)
  rcases List.mem_append.mp he' with hmem | hmem
  · exact absurd hmem (hnot pre (by omega))
  rcases List.mem_cons.mp hmem with heq | hmem
  · cases heq
    rfl
  · exact absurd hmem (hnot post (by omega))

/-- A connection that occurs once occurs once among the events of the call that caused it. -/
theorem count_eventsOf {es : List Entry} (hcount : (gather f es).count c = 1) {e : Event}
    (he : ⟨call, e⟩ ∈ es) (hc : c ∈ f e) : ((eventsOf call es).flatMap f).count c = 1 := by
  rw [← count_gather_of_call fun e' he' hc' =>
    caller_unique (Nat.le_of_eq hcount) he' hc' he hc]
  exact hcount

/-! ## Replaying -/

@[simp]
theorem replay_append (s : Nat) (h : Holdings Connection) (es es' : List Entry) :
    replay s h (es ++ es') = replay s (replay s h es) es' := by
  simp [replay]

@[simp]
theorem replay_cons (s : Nat) (h : Holdings Connection) (e : Entry) (es : List Entry) :
    replay s h (e :: es) = replay s (e.event.onHeld s h) es := rfl

@[simp]
theorem replay_nil (s : Nat) (h : Holdings Connection) : replay s h [] = h := rfl

/-- A drain that takes out what is held there and then. -/
def Event.Honest (s : Nat) (h : Holdings Connection) : Event → Prop
  | .drained t entries => t = s → entries = h.entries
  | _ => True

theorem count_onHeld {h : Holdings Connection} {e : Event} (hhonest : e.Honest s h) (c : Connection) :
    (e.onHeld s h).all.count c + (e.drainsFrom s).count c =
      h.all.count c + (e.keepsIn s).count c := by
  cases e with
  | kept t name batch =>
      by_cases ht : t = s
      · simp [Event.onHeld, Event.drainsFrom, Event.keepsIn, ht, Holdings.count_all_hold]
      · simp [Event.onHeld, Event.drainsFrom, Event.keepsIn, ht]
  | drained t entries =>
      by_cases ht : t = s
      · have hall : entries.flatMap Prod.snd = h.all := by rw [hhonest ht, Holdings.all]
        simp [Event.onHeld, Event.drainsFrom, Event.keepsIn, ht, Holdings.drain, hall]
      · simp [Event.onHeld, Event.drainsFrom, Event.keepsIn, ht]
  | _ => simp [Event.onHeld, Event.drainsFrom, Event.keepsIn]

/-- The ledger of a session: what was held and what joined is what is held and what was taken out. -/
theorem count_replay {h : Holdings Connection} {es : List Entry}
    (hhonest : ∀ pre e post, es = pre ++ e :: post → e.event.Honest s (replay s h pre))
    (c : Connection) :
    (replay s h es).all.count c + (gather (Event.drainsFrom s) es).count c =
      h.all.count c + (gather (Event.keepsIn s) es).count c := by
  induction es generalizing h with
  | nil => rfl
  | cons e es ih =>
      have hstep := count_onHeld (hhonest [] e es rfl) c
      have hrest := ih (h := e.event.onHeld s h) fun pre e' post heq =>
        hhonest (e :: pre) e' post (by rw [heq]; rfl)
      rw [replay_cons, gather_cons, gather_cons, List.count_append, List.count_append]
      rw [replay_nil] at hstep
      omega

theorem mem_onHeld {h : Holdings Connection} {e : Event} (hc : c ∈ (e.onHeld s h).all) :
    c ∈ h.all ∨ c ∈ e.keepsIn s := by
  cases e with
  | kept t name batch =>
      by_cases ht : t = s
      · simpa [Event.onHeld, Event.keepsIn, ht, Holdings.mem_all_hold] using hc
      · simp only [Event.onHeld, ht, if_false] at hc
        exact .inl hc
  | drained t entries =>
      by_cases ht : t = s
      · simp [Event.onHeld, ht, Holdings.drain] at hc
      · simp only [Event.onHeld, ht, if_false] at hc
        exact .inl hc
  | _ => exact .inl hc

/-- What is held after a stretch was held before or joined in it. -/
theorem mem_replay {h : Holdings Connection} {es : List Entry} (hc : c ∈ (replay s h es).all) :
    c ∈ h.all ∨ c ∈ gather (Event.keepsIn s) es := by
  induction es generalizing h with
  | nil => exact .inl hc
  | cons e es ih =>
      rw [gather_cons, List.mem_append]
      rcases ih hc with hc | hc
      · exact (mem_onHeld hc).imp_right .inl
      · exact .inr (.inr hc)

theorem keepsIn_subset {s : Nat} {es : List Entry} (hc : c ∈ gather (Event.keepsIn s) es) :
    c ∈ gather Event.keeps es := by
  obtain ⟨n, e, hmem, hc⟩ := mem_gather.mp hc
  refine mem_gather.mpr ⟨n, e, hmem, ?_⟩
  cases e with
  | kept t name batch =>
      by_cases ht : t = s
      · simpa [Event.keepsIn, Event.keeps, ht] using hc
      · simp [Event.keepsIn, ht] at hc
  | _ => simp [Event.keepsIn] at hc

/-- What joins two sessions occurs twice among all that joins. -/
theorem count_keepsIn_add_le {s t : Nat} (hne : s ≠ t) (es : List Entry) (c : Connection) :
    (gather (Event.keepsIn s) es).count c + (gather (Event.keepsIn t) es).count c ≤
      (gather Event.keeps es).count c := by
  induction es with
  | nil => simp
  | cons e es ih =>
      simp only [gather_cons, List.count_append]
      have hevent : (e.event.keepsIn s).count c + (e.event.keepsIn t).count c ≤
          e.event.keeps.count c := by
        cases e.event with
        | kept u name batch =>
            by_cases hs : u = s
            · simp [Event.keepsIn, Event.keeps, hs, hne]
            · by_cases ht : u = t
              · simp [Event.keepsIn, Event.keeps, ht, hne.symm]
              · simp [Event.keepsIn, hs, ht]
        | _ => simp [Event.keepsIn]
      omega

theorem count_keepsIn_le (s : Nat) (es : List Entry) (c : Connection) :
    (gather (Event.keepsIn s) es).count c ≤ (gather Event.keeps es).count c :=
  Nat.le_trans (Nat.le_add_right _ _) (count_keepsIn_add_le (Nat.succ_ne_self s).symm es c)

end Stretches

end SessionBroker
