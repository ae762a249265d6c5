import SessionBroker.Proofs.Stage

/-!
# Conservation of connections

Every connection that was opened has one fate: it is held, it was handed out, it was rolled back
or it was released. The ledger behind this has three columns. What joins a session was opened by
the call that keeps it; what a session holds or has taken out of it is what joined; and a call
attempts to close what it opened or took out. As no connection is opened twice, each column
shows it at most once.
-/

namespace SessionBroker

/-! ## Fates -/

/-- What became of an opened connection. -/
inductive Fate where
  | held
  | handedOut
  | rolledBack
  | released
deriving DecidableEq

/-- How often calls attempt to close a connection of that fate. -/
def Fate.attempts : Fate → Nat
  | .held | .handedOut => 0
  | .rolledBack | .released => 1

/-- Whether a step is a call, and not something that a caller or the outside does. -/
def isCall (es : List Entry) (n : Nat) : Bool :=
  es.any fun e => e.call == n && match e.event with
    | .begun (some _) => true
    | _ => false

/-- How often a step attempted to close a connection. -/
def attemptsOf (n : Nat) (es : List Entry) (c : Connection) : Nat :=
  ((eventsOf n es).flatMap Event.closes).count c

/-- How often calls attempted to close a connection. -/
def attemptsOfCalls (es : List Entry) (c : Connection) : Nat :=
  (gather Event.closes (es.filter fun e => isCall es e.call)).count c

section Attempts

variable {es : List Entry} {n : Nat} {c : Connection}

theorem isCall_iff : isCall es n = true ↔ ∃ call, ⟨n, .begun (some call)⟩ ∈ es := by
  simp only [isCall, List.any_eq_true, Bool.and_eq_true, beq_iff_eq]
  constructor
  · rintro ⟨⟨m, e⟩, he, rfl, hcall⟩
    cases e with
    | begun call =>
        cases call with
        | none => cases hcall
        | some call => exact ⟨call, he⟩
    | _ => cases hcall
  · rintro ⟨call, he⟩
    exact ⟨_, he, rfl, rfl⟩

theorem closing_of_mem {e : Entry} (hc : c ∈ e.event.closes) : e = ⟨e.call, .closing c⟩ := by
  obtain ⟨n, e⟩ := e
  cases e with
  | closing d => rw [List.mem_singleton.mp hc]
  | _ => cases hc

theorem attemptsOfCalls_eq_zero
    (hnone : ∀ m call, ⟨m, .begun (some call)⟩ ∈ es → ⟨m, .closing c⟩ ∉ es) :
    attemptsOfCalls es c = 0 := by
  refine List.count_eq_zero.mpr fun hc => ?_
  obtain ⟨e, he, hc⟩ := List.mem_flatMap.mp hc
  rw [List.mem_filter] at he
  obtain ⟨call, hbegun⟩ := isCall_iff.mp he.2
  exact hnone e.call call hbegun (closing_of_mem hc ▸ he.1)

/-- If one call alone attempts to close a connection, these are all attempts of calls. -/
theorem attemptsOfCalls_eq {call : Call} (hcall : ⟨n, .begun (some call)⟩ ∈ es)
    (honly : ∀ m call, ⟨m, .begun (some call)⟩ ∈ es → ⟨m, .closing c⟩ ∈ es → m = n) :
    attemptsOfCalls es c = attemptsOf n es c := by
  have hown : eventsOf n (es.filter fun e => isCall es e.call) = eventsOf n es := by
    rw [eventsOf, eventsOf, List.filter_filter]
    congr 1
    refine List.filter_congr fun e _ => ?_
    by_cases hn : e.call = n
    · simp [hn, isCall_iff.mpr ⟨call, hcall⟩]
    · simp [hn]
  rw [attemptsOf, ← hown]
  refine count_gather_of_call fun e he hc => ?_
  rw [List.mem_filter] at he
  obtain ⟨call', hbegun⟩ := isCall_iff.mp he.2
  exact honly e.call call' hbegun (closing_of_mem hc ▸ he.1)

end Attempts

namespace World

variable {ε : Type}

/-- It stands in one place. -/
def IsHeld (w : World ε) (c : Connection) : Prop :=
  ∃ (s : Nat) (name : String) (i : Nat), (w.heldFor s name)[i]? = some c ∧
    ∀ (s' : Nat) (name' : String) (i' : Nat), (w.heldFor s' name')[i']? = some c →
      s' = s ∧ name' = name ∧ i' = i

/-- The call that opened it was not to keep it and answered with it; it never joined a session. -/
def IsHandedOut (w : World ε) (c : Connection) : Prop :=
  c ∉ gather Event.keeps w.log.toList ∧
    ∃ n source s name count cs view, ⟨n, .opened source c⟩ ∈ w.log.toList ∧
      ⟨n, .begun (some (.acquire s name count .connectionStrictly))⟩ ∈ w.log.toList ∧
      ⟨n, .ended (.answered (.connections cs)) view⟩ ∈ w.log.toList ∧ c ∈ cs

/-- The call that opened it failed and attempted to close it once; it never joined a session, and
no call answered with it. -/
def IsRolledBack (w : World ε) (c : Connection) : Prop :=
  c ∉ gather Event.keeps w.log.toList ∧
    (∀ n call cs view, ⟨n, .begun (some call)⟩ ∈ w.log.toList →
      ⟨n, .ended (.answered (.connections cs)) view⟩ ∈ w.log.toList → c ∉ cs) ∧
    ∃ n source s name count mode e view, ⟨n, .opened source c⟩ ∈ w.log.toList ∧
      ⟨n, .begun (some (.acquire s name count mode))⟩ ∈ w.log.toList ∧
      ⟨n, .ended (.failed e) view⟩ ∈ w.log.toList ∧ attemptsOf n w.log.toList c = 1

/-- One release took it out, and attempted to close it once. -/
def IsReleased (w : World ε) (c : Connection) : Prop :=
  ∃ n s entries, ⟨n, .begun (some (.release s))⟩ ∈ w.log.toList ∧
    ⟨n, .drained s entries⟩ ∈ w.log.toList ∧ c ∈ entries.flatMap Prod.snd ∧
    attemptsOf n w.log.toList c = 1 ∧
    ∀ m t entries', ⟨m, .drained t entries'⟩ ∈ w.log.toList →
      c ∈ entries'.flatMap Prod.snd → m = n

def HasFate (w : World ε) (c : Connection) : Fate → Prop
  | .held => w.IsHeld c
  | .handedOut => w.IsHandedOut c
  | .rolledBack => w.IsRolledBack c
  | .released => w.IsReleased c

end World

/-! ## Columns -/

namespace World.Settled

variable {ε : Type} {w : World ε} {n m s t : Nat} {source : SourceId} {c : Connection} {e : Event}

/-- What joins a session was opened by the same call. -/
theorem opened_of_kept (h : w.Settled) (he : ⟨n, e⟩ ∈ w.log.toList) (hc : c ∈ e.keeps) :
    ∃ source, ⟨n, .opened source c⟩ ∈ w.log.toList := by
  obtain ⟨call, body, o, view, ht⟩ := h.transcript he
  have hkept : c ∈ body.flatMap Event.keeps := (ht.mem_flatMap keeps_of_bound).mpr ⟨e, he, hc⟩
  have hle := ht.script.tally.count_keeps_le c
  exact ht.exists_opened
    (List.count_pos_iff.mp (Nat.lt_of_lt_of_le (List.count_pos_iff.mpr hkept) hle))

theorem kept_of_held (h : w.Settled) (hc : c ∈ (w.session s).holdings.all) :
    c ∈ gather Event.keeps w.log.toList := by
  rw [h.held_eq] at hc
  exact keepsIn_subset ((mem_replay hc).resolve_left (by simp))

theorem mem_drainsFrom {entries : List (String × List Connection)}
    (he : ⟨n, .drained s entries⟩ ∈ w.log.toList) (hc : c ∈ entries.flatMap Prod.snd) :
    c ∈ gather (Event.drainsFrom s) w.log.toList :=
  mem_gather.mpr ⟨n, _, he, by simpa [Event.drainsFrom] using hc⟩

theorem kept_of_drained (h : w.Settled) {entries : List (String × List Connection)}
    (he : ⟨n, .drained s entries⟩ ∈ w.log.toList) (hc : c ∈ entries.flatMap Prod.snd) :
    c ∈ gather Event.keeps w.log.toList := by
  have hledger := h.count_held s c
  have hpos := List.count_pos_iff.mpr (mem_drainsFrom he hc)
  exact keepsIn_subset (s := s) (List.count_pos_iff.mp (by omega))

section Fresh

variable (hfresh : (gather Event.opens w.log.toList).Nodup)

include hfresh

theorem opener_unique {source' : SourceId} (he : ⟨n, .opened source c⟩ ∈ w.log.toList)
    (he' : ⟨m, .opened source' c⟩ ∈ w.log.toList) : m = n :=
  caller_unique (f := Event.opens) (List.nodup_iff_count.mp hfresh c) he'
    (List.mem_singleton_self c) he (List.mem_singleton_self c)

theorem count_opens_eq_one (hopened : ⟨n, .opened source c⟩ ∈ w.log.toList)
    {call : Option Call} {body : List Event} {o : Outcome} {view : Option View}
    (ht : Transcript w.log.toList n call body o view) :
    (body.flatMap Event.opens).count c = 1 := by
  have hmem : c ∈ gather Event.opens w.log.toList :=
    mem_gather.mpr ⟨n, _, hopened, List.mem_singleton_self c⟩
  have honce : (gather Event.opens w.log.toList).count c = 1 := by
    rw [hfresh.count, if_pos hmem]
  rw [← ht.flatMap_eq opens_of_bound]
  exact count_eventsOf honce hopened (List.mem_singleton_self c)

/-- What joins was opened once, so the call that opened it has the whole column. -/
theorem count_keeps_eq (h : w.Settled) (hopened : ⟨n, .opened source c⟩ ∈ w.log.toList)
    {call : Option Call} {body : List Event} {o : Outcome} {view : Option View}
    (ht : Transcript w.log.toList n call body o view) :
    (gather Event.keeps w.log.toList).count c = (body.flatMap Event.keeps).count c := by
  rw [← ht.flatMap_eq keeps_of_bound]
  refine count_gather_of_call fun e he hc => ?_
  obtain ⟨source', hopened'⟩ := h.opened_of_kept he hc
  exact opener_unique hfresh hopened hopened'

/-- What the call that opened it does not keep joins no session. -/
theorem unkept_of_opener (h : w.Settled) (hopened : ⟨n, .opened source c⟩ ∈ w.log.toList)
    {call : Option Call} {body : List Event} {o : Outcome} {view : Option View}
    (ht : Transcript w.log.toList n call body o view) (hkeeps : body.flatMap Event.keeps = []) :
    c ∉ gather Event.keeps w.log.toList := by
  rw [← List.count_eq_zero, count_keeps_eq hfresh h hopened ht, hkeeps]
  rfl

/-- No connection joins twice. -/
theorem count_keeps_le (h : w.Settled) (c : Connection) :
    (gather Event.keeps w.log.toList).count c ≤ 1 := by
  by_cases hkept : c ∈ gather Event.keeps w.log.toList
  · obtain ⟨n, e, he, hc⟩ := mem_gather.mp hkept
    obtain ⟨source, hopened⟩ := h.opened_of_kept he hc
    obtain ⟨call, body, o, view, ht⟩ := h.transcript he
    rw [count_keeps_eq hfresh h hopened ht]
    -- a call keeps a connection no more often than it opened it
    have hopens := count_eventsOf_le (f := Event.opens) (c := c) n w.log.toList
    rw [ht.flatMap_eq opens_of_bound] at hopens
    have hle := ht.script.tally.count_keeps_le c
    have honce := List.nodup_iff_count.mp hfresh c
    omega
  · rw [List.count_eq_zero.mpr hkept]
    exact Nat.zero_le 1

omit hfresh in
/-- A release takes out what joined its session. -/
theorem count_drainsFrom_le (h : w.Settled) (s : Nat) (c : Connection) :
    (gather (Event.drainsFrom s) w.log.toList).count c ≤
      (gather (Event.keepsIn s) w.log.toList).count c := by
  have hledger := h.count_held s c
  omega

/-- A connection joins one session at most. -/
theorem session_unique (h : w.Settled) (hs : c ∈ gather (Event.keepsIn s) w.log.toList)
    (ht : c ∈ gather (Event.keepsIn t) w.log.toList) : s = t := by
  refine Decidable.byContradiction fun hst => ?_
  have hle := count_keepsIn_add_le hst w.log.toList c
  have honce := count_keeps_le hfresh h c
  have hpos := List.count_pos_iff.mpr hs
  have hpos' := List.count_pos_iff.mpr ht
  omega

/-- What a call attempts to close it rolls back, or it took it out. -/
theorem closing_cases (h : w.Settled) {call : Call} (hbegun : ⟨n, .begun (some call)⟩ ∈ w.log.toList)
    (hc : ⟨n, .closing c⟩ ∈ w.log.toList) :
    (c ∉ gather Event.keeps w.log.toList ∧ (∃ source, ⟨n, .opened source c⟩ ∈ w.log.toList) ∧
        ∃ e view, ⟨n, .ended (.failed e) view⟩ ∈ w.log.toList) ∨
      ∃ s entries, ⟨n, .drained s entries⟩ ∈ w.log.toList ∧ c ∈ entries.flatMap Prod.snd := by
  obtain ⟨call', body, o, view, ht⟩ := h.transcript hc
  cases ht.begun_eq hbegun
  have hcloses : c ∈ body.flatMap Event.closes :=
    (ht.mem_flatMap closes_of_bound).mpr ⟨_, hc, List.mem_singleton_self c⟩
  rcases ht.script.tally.closes_cases rfl hcloses with ⟨hopens, hkeeps, e, rfl⟩ | hdrains
  · obtain ⟨source, hopened⟩ := ht.exists_opened hopens
    exact .inl ⟨unkept_of_opener hfresh h hopened ht hkeeps, ⟨source, hopened⟩, e, view,
      ht.mem_iff.mpr (.inr (.inr rfl))⟩
  · exact .inr (ht.exists_drained hdrains)

/-! ## One fate at most -/

theorem not_held_and_released (h : w.Settled) (hheld : w.IsHeld c) (hreleased : w.IsReleased c) :
    False := by
  obtain ⟨s, name, i, hplace, -⟩ := hheld
  obtain ⟨n, t, entries, -, hdrained, hc, -⟩ := hreleased
  have hall : c ∈ (w.session s).holdings.all :=
    Holdings.mem_all_iff.mpr ⟨name, List.mem_of_getElem? hplace⟩
  have hpos := List.count_pos_iff.mpr hall
  have hpos' := List.count_pos_iff.mpr (mem_drainsFrom hdrained hc)
  have honce := count_keeps_le hfresh h c
  have hledger := h.count_held s c
  have hledger' := h.count_held t c
  by_cases hst : s = t
  · subst hst
    have hle := count_keepsIn_le s w.log.toList c
    omega
  · have hle := count_keepsIn_add_le hst w.log.toList c
    omega

theorem not_handedOut_and_rolledBack (h : w.Settled) (hout : w.IsHandedOut c)
    (hback : w.IsRolledBack c) : False := by
  obtain ⟨-, n, source, s, name, count, cs, view, hopened, -, hended, -⟩ := hout
  obtain ⟨-, -, m, source', s', name', count', mode, e, view', hopened', -, hended', -⟩ := hback
  cases opener_unique hfresh hopened hopened'
  obtain ⟨call, body, o, view₀, ht⟩ := h.transcript hended
  have ho := (ht.ended_eq hended).1.trans (ht.ended_eq hended').1.symm
  cases ho

omit hfresh in
theorem kept_of_isHeld (h : w.Settled) (hheld : w.IsHeld c) :
    c ∈ gather Event.keeps w.log.toList := by
  obtain ⟨s, name, i, hplace, -⟩ := hheld
  exact h.kept_of_held (Holdings.mem_all_iff.mpr ⟨name, List.mem_of_getElem? hplace⟩)

omit hfresh in
theorem kept_of_isReleased (h : w.Settled) (hreleased : w.IsReleased c) :
    c ∈ gather Event.keeps w.log.toList := by
  obtain ⟨n, s, entries, -, hdrained, hc, -⟩ := hreleased
  exact h.kept_of_drained hdrained hc

theorem fate_unique (h : w.Settled) {fate other : Fate} (hfate : w.HasFate c fate)
    (hother : w.HasFate c other) : other = fate := by
  cases fate <;> cases other
  case held.held | handedOut.handedOut | rolledBack.rolledBack | released.released => rfl
  case held.released => exact (not_held_and_released hfresh h hfate hother).elim
  case released.held => exact (not_held_and_released hfresh h hother hfate).elim
  case handedOut.rolledBack => exact (not_handedOut_and_rolledBack hfresh h hfate hother).elim
  case rolledBack.handedOut => exact (not_handedOut_and_rolledBack hfresh h hother hfate).elim
  case held.handedOut | held.rolledBack => exact absurd (h.kept_of_isHeld hfate) hother.1
  case handedOut.held | rolledBack.held => exact absurd (h.kept_of_isHeld hother) hfate.1
  case released.handedOut | released.rolledBack =>
    exact absurd (h.kept_of_isReleased hfate) hother.1
  case handedOut.released | rolledBack.released =>
    exact absurd (h.kept_of_isReleased hother) hfate.1

/-! ## One fate at least -/

theorem fate_of_failed (h : w.Settled) (hopened : ⟨n, .opened source c⟩ ∈ w.log.toList)
    {name : String} {count : Nat} {mode : AcquisitionMode} {body : List Event} {err : Error}
    {view : Option View}
    (ht : Transcript w.log.toList n (some (.acquire s name count mode)) body (.failed err) view)
    (hkeeps : body.flatMap Event.keeps = [])
    (hcloses : body.flatMap Event.closes = body.flatMap Event.opens) :
    w.IsRolledBack c ∧ attemptsOfCalls w.log.toList c = 1 := by
  have hbegun : ⟨n, .begun (some (.acquire s name count mode))⟩ ∈ w.log.toList :=
    ht.mem_iff.mpr (.inl rfl)
  have hended : ⟨n, .ended (.failed err) view⟩ ∈ w.log.toList := ht.mem_iff.mpr (.inr (.inr rfl))
  have hnot := unkept_of_opener hfresh h hopened ht hkeeps
  have honce : attemptsOf n w.log.toList c = 1 := by
    rw [attemptsOf, ht.flatMap_eq closes_of_bound, hcloses]
    exact count_opens_eq_one hfresh hopened ht
  refine ⟨⟨hnot, ?_, n, source, s, name, count, mode, err, view, hopened, hbegun, hended, honce⟩,
    ?_⟩
  -- a call that answers with `c` opened it, and this one failed, or `c` joined a session
  · intro m call cs view' hbegun' hended' hc
    obtain ⟨call', body', o, view'', ht'⟩ := h.transcript hended'
    cases ht'.begun_eq hbegun'
    obtain ⟨rfl, -⟩ := ht'.ended_eq hended'
    refine (ht'.sourced rfl cs rfl c hc).elim (fun hown => ?_) hnot
    obtain ⟨source', hopened'⟩ := ht'.exists_opened hown
    cases opener_unique hfresh hopened hopened'
    cases (ht.ended_eq hended').1
  · rw [attemptsOfCalls_eq hbegun fun m call hbegun' hclosing => ?_, honce]
    rcases closing_cases hfresh h hbegun' hclosing with ⟨-, ⟨source', hopened'⟩, -⟩ | hdrained
    · exact opener_unique hfresh hopened hopened'
    · obtain ⟨t, entries, hdrained, hc⟩ := hdrained
      exact absurd (h.kept_of_drained hdrained hc) hnot

theorem fate_of_unkept (h : w.Settled) (hopened : ⟨n, .opened source c⟩ ∈ w.log.toList)
    {name : String} {count : Nat} {body : List Event} {cs : List Connection} {view : Option View}
    (ht : Transcript w.log.toList n (some (.acquire s name count .connectionStrictly)) body
      (.answered (.connections cs)) view)
    (hkeeps : body.flatMap Event.keeps = []) (hc : c ∈ cs) :
    w.IsHandedOut c ∧ attemptsOfCalls w.log.toList c = 0 := by
  have hbegun : ⟨n, .begun (some (.acquire s name count .connectionStrictly))⟩ ∈ w.log.toList :=
    ht.mem_iff.mpr (.inl rfl)
  have hended : ⟨n, .ended (.answered (.connections cs)) view⟩ ∈ w.log.toList :=
    ht.mem_iff.mpr (.inr (.inr rfl))
  have hnot := unkept_of_opener hfresh h hopened ht hkeeps
  refine ⟨⟨hnot, n, source, s, name, count, cs, view, hopened, hbegun, hended, hc⟩, ?_⟩
  refine attemptsOfCalls_eq_zero fun m call hbegun' hclosing => ?_
  rcases closing_cases hfresh h hbegun' hclosing with ⟨-, ⟨source', hopened'⟩, e, view', hended'⟩ |
    ⟨t, entries, hdrained, hc⟩
  · cases opener_unique hfresh hopened hopened'
    cases (ht.ended_eq hended').1
  · exact hnot (h.kept_of_drained hdrained hc)

/-- A connection joins one session, once. -/
theorem joined_once (h : w.Settled) (hkept : c ∈ gather Event.keeps w.log.toList) :
    ∃ s, (gather (Event.keepsIn s) w.log.toList).count c = 1 := by
  obtain ⟨n, e, he, hc⟩ := mem_gather.mp hkept
  cases e with
  | kept s name batch =>
      have hjoined : c ∈ gather (Event.keepsIn s) w.log.toList :=
        mem_gather.mpr ⟨n, _, he, by simpa [Event.keepsIn, Event.keeps] using hc⟩
      exact ⟨s, Nat.le_antisymm
        (Nat.le_trans (count_keepsIn_le s _ c) (count_keeps_le hfresh h c))
        (List.count_pos_iff.mpr hjoined)⟩
  | _ => cases hc

/-- It is taken out of the session that it joined. -/
theorem drained_from (h : w.Settled) (hjoined : c ∈ gather (Event.keepsIn s) w.log.toList)
    {entries : List (String × List Connection)} (he : ⟨n, .drained t entries⟩ ∈ w.log.toList)
    (hc : c ∈ entries.flatMap Prod.snd) : t = s := by
  have hpos := List.count_pos_iff.mpr (mem_drainsFrom he hc)
  have hle := h.count_drainsFrom_le t c
  exact session_unique hfresh h (List.count_pos_iff.mp (by omega)) hjoined

theorem fate_of_undrained (h : w.Settled)
    (hjoined : (gather (Event.keepsIn s) w.log.toList).count c = 1)
    (hout : c ∉ gather (Event.drainsFrom s) w.log.toList) :
    w.IsHeld c ∧ attemptsOfCalls w.log.toList c = 0 := by
  have hmem : c ∈ gather (Event.keepsIn s) w.log.toList := List.count_pos_iff.mp (by omega)
  have hheld : (w.session s).holdings.all.count c = 1 := by
    have hledger := h.count_held s c
    rw [List.count_eq_zero.mpr hout] at hledger
    omega
  have hall : c ∈ (w.session s).holdings.all := List.count_pos_iff.mp (by omega)
  obtain ⟨name, hname⟩ := Holdings.mem_all_iff.mp hall
  obtain ⟨i, hi⟩ := List.getElem?_of_mem hname
  refine ⟨⟨s, name, i, hi, fun s' name' i' hi' => ?_⟩, ?_⟩
  · have hpos : 0 < (w.session s').holdings.all.count c :=
      List.count_pos_iff.mpr (Holdings.mem_all_iff.mpr ⟨name', List.mem_of_getElem? hi'⟩)
    have hledger := h.count_held s' c
    have hjoined' : c ∈ gather (Event.keepsIn s') w.log.toList := List.count_pos_iff.mp (by omega)
    -- both places are in the one session that `c` joined, which holds it once
    cases session_unique hfresh h hjoined' hmem
    exact ⟨rfl, Holdings.place_unique (Nat.le_of_eq hheld) hi' hi⟩
  · refine attemptsOfCalls_eq_zero fun m call hbegun hclosing => ?_
    rcases closing_cases hfresh h hbegun hclosing with ⟨hnot, -, -⟩ | ⟨t, entries, hdrained, hc⟩
    · exact hnot (keepsIn_subset hmem)
    · cases drained_from hfresh h hmem hdrained hc
      exact hout (mem_drainsFrom hdrained hc)

theorem fate_of_drained (h : w.Settled)
    (hjoined : (gather (Event.keepsIn s) w.log.toList).count c = 1)
    (hout : c ∈ gather (Event.drainsFrom s) w.log.toList) :
    w.IsReleased c ∧ attemptsOfCalls w.log.toList c = 1 := by
  have hmem : c ∈ gather (Event.keepsIn s) w.log.toList := List.count_pos_iff.mp (by omega)
  have honce : (gather (Event.drainsFrom s) w.log.toList).count c = 1 := by
    have hle := h.count_drainsFrom_le s c
    have hpos := List.count_pos_iff.mpr hout
    omega
  obtain ⟨m, e, he, hc⟩ := mem_gather.mp hout
  obtain ⟨entries, rfl, hentries⟩ :
      ∃ entries, e = .drained s entries ∧ c ∈ entries.flatMap Prod.snd := by
    cases e with
    | drained t entries =>
        by_cases ht : t = s
        · subst ht
          exact ⟨entries, rfl, by simpa [Event.drainsFrom] using hc⟩
        · simp [Event.drainsFrom, ht] at hc
    | _ => cases hc
  obtain ⟨call, body, o, view, ht⟩ := h.transcript he
  obtain ⟨rfl, hdrains, hcloses⟩ := ht.script.drained ((ht.mem_body rfl).mp he) hentries
  have hbegun : ⟨m, .begun (some (.release s))⟩ ∈ w.log.toList := ht.mem_iff.mpr (.inl rfl)
  have hunique : ∀ m' t entries', ⟨m', .drained t entries'⟩ ∈ w.log.toList →
      c ∈ entries'.flatMap Prod.snd → m' = m := by
    intro m' t entries' he' hc'
    cases drained_from hfresh h hmem he' hc'
    refine caller_unique (Nat.le_of_eq honce) he' ?_ he hc
    simpa [Event.drainsFrom] using hc'
  -- a release attempts to close what it took out, as often as it took it out
  have hattempts : attemptsOf m w.log.toList c = 1 := by
    have hown := count_eventsOf honce he hc
    rwa [ht.flatMap_eq drainsFrom_of_bound, hdrains, ← hcloses, ← ht.flatMap_eq closes_of_bound]
      at hown
  refine ⟨⟨m, s, entries, hbegun, he, hentries, hattempts, hunique⟩, ?_⟩
  rw [attemptsOfCalls_eq hbegun fun m' call hbegun' hclosing => ?_, hattempts]
  rcases closing_cases hfresh h hbegun' hclosing with ⟨hnot, -, -⟩ | ⟨t, entries', hdrained, hc'⟩
  · exact absurd (keepsIn_subset hmem) hnot
  · exact hunique m' t entries' hdrained hc'

/-- Every opened connection has a fate. -/
theorem exists_fate (h : w.Settled) (hopened : ⟨n, .opened source c⟩ ∈ w.log.toList) :
    ∃ fate, w.HasFate c fate ∧ attemptsOfCalls w.log.toList c = fate.attempts := by
  obtain ⟨call, body, o, view, ht⟩ := h.transcript hopened
  have hone := count_opens_eq_one hfresh hopened ht
  have hopens : c ∈ body.flatMap Event.opens := List.count_pos_iff.mp (by omega)
  obtain ⟨s, name, count, mode, rfl, hcases⟩ := ht.script.tally.opens_cases hopens
  rcases hcases with ⟨e, rfl, hkeeps, hcloses⟩ | ⟨reused, rfl, hkeeps⟩
  · exact ⟨.rolledBack, fate_of_failed hfresh h hopened ht hkeeps hcloses⟩
  · cases mode with
    | connectionStrictly =>
        exact ⟨.handedOut, fate_of_unkept hfresh h hopened ht hkeeps
          (List.mem_append_right reused hopens)⟩
    | memoryStrictly =>
        have hkept : c ∈ gather Event.keeps w.log.toList := by
          rw [← List.count_pos_iff, count_keeps_eq hfresh h hopened ht, hkeeps]
          exact List.count_pos_iff.mpr hopens
        obtain ⟨t, hjoined⟩ := joined_once hfresh h hkept
        by_cases hout : c ∈ gather (Event.drainsFrom t) w.log.toList
        · exact ⟨.released, fate_of_drained hfresh h hjoined hout⟩
        · exact ⟨.held, fate_of_undrained hfresh h hjoined hout⟩

end Fresh

end World.Settled

/-! ## Main result -/

/-- Every connection that a run opened has one fate, and calls attempted to close it as often as
that fate says: once if it was rolled back or released, and else never. -/
theorem fate_of_opened {ε : Type} (k : Surroundings ε) (depth : Nat) (steps : List (Step ε)) (env : ε)
    (hfresh : (gather Event.opens (k.run depth steps (.new env)).log.toList).Nodup) {c : Connection}
    (hopened : c ∈ gather Event.opens (k.run depth steps (.new env)).log.toList) :
    ∃ fate, (∀ other, (k.run depth steps (.new env)).HasFate c other ↔ other = fate) ∧
      attemptsOfCalls (k.run depth steps (.new env)).log.toList c = fate.attempts := by
  have h := k.settled_run depth steps env
  obtain ⟨n, e, he, hc⟩ := mem_gather.mp hopened
  obtain ⟨source, rfl⟩ : ∃ source, e = .opened source c := by
    cases e with
    | opened source d => exact ⟨source, by rw [List.mem_singleton.mp hc]⟩
    | _ => cases hc
  obtain ⟨fate, hfate, hattempts⟩ := World.Settled.exists_fate hfresh h he
  refine ⟨fate, ?_, hattempts⟩
  intro other
  constructor
  · intro hother
    exact World.Settled.fate_unique hfresh h hfate hother
  · rintro rfl
    exact hfate

theorem fate_of_overlap :
    ∃ fate, (∀ other, (Stage.surroundings.run 1 (Stage.overlap.map Stage.Instruction.step)
        (.new (Stage.overlapping none))).HasFate ⟨0, 0⟩ other ↔ other = fate) ∧
      attemptsOfCalls (Stage.surroundings.run 1 (Stage.overlap.map Stage.Instruction.step)
        (.new (Stage.overlapping none))).log.toList ⟨0, 0⟩ = fate.attempts :=
  fate_of_opened Stage.surroundings 1 _ _ (Stage.nodup_opens 1 Stage.overlap _) (by decide +kernel)

end SessionBroker
