import SessionBroker.Proofs.Apart

/-!
# Parts of the stage

As long as no cues are played, what becomes of an attempt to open from a source depends on how many
connections the source has opened and on how it behaves. What becomes of an attempt to close a
connection depends on how its source behaves.
-/

namespace SessionBroker

namespace Stage

variable {st st' : Stage} {s : SourceId} {source : Source} {f g : Source → Source}

/-- No cues are played, and a source closed none but what it opened. -/
structure Calm (st : Stage) : Prop where
  uncued : st.Uncued
  counted : ∀ {s source}, st.source? s = some source → ∀ n ∈ source.closed, n < source.opened

theorem calm_iff : st.Calm ↔
    ∀ t ∈ st.sources, t.behaviour.cues.isEmpty ∧ ∀ n ∈ t.closed, n < t.opened := by
  constructor
  · intro h t ht
    obtain ⟨s, hs⟩ := List.mem_iff_getElem?.mp ht
    exact ⟨List.isEmpty_iff.mpr (h.uncued t ht), h.counted (s := s) hs⟩
  · intro h
    exact ⟨fun t ht => List.isEmpty_iff.mp (h t ht).1,
      fun ht => (h _ (List.mem_of_getElem? ht)).2⟩

instance (st : Stage) : Decidable st.Calm := decidable_of_iff _ calm_iff.symm

/-- How a connection stands, if it was opened. -/
def Source.seen (serial : Nat) (t : Source) : Option (Bool × Behaviour Instruction) :=
  if serial < t.opened then some (t.closed.contains serial, t.behaviour) else none

/-- A source is seen by its count and its behaviour, and a connection by whether it is closed and by
how its source behaves. -/
def outlook : Outlook Stage (Option (Nat × Behaviour Instruction))
    (Bool × Behaviour Instruction) where
  calm := Calm
  ofSource st s := (st.source? s).map fun t => (t.opened, t.behaviour)
  ofConnection st c := (st.source? c.source).bind (Source.seen c.serial)

theorem updateSource_congr (h : st.source? s = some source) (hfg : f source = g source) :
    st.updateSource s f = st.updateSource s g := by
  have hsources : st.sources.modify s f = st.sources.modify s g := by
    refine List.ext_getElem? fun i => ?_
    rw [List.getElem?_modify, List.getElem?_modify]
    by_cases hi : s = i
    · subst hi
      have hs : st.sources[s]? = some source := h
      simp [hs, hfg]
    · simp [hi]
  rw [updateSource, updateSource, hsources]

theorem updateSource_self (h : st.source? s = some source) (hf : f source = source) :
    st.updateSource s f = st := by
  rw [updateSource_congr h (show f source = id source from hf), updateSource, List.modify_id]

theorem updateSource_updateSource (st : Stage) (s : SourceId) (f g : Source → Source) :
    (st.updateSource s f).updateSource s g = st.updateSource s (g ∘ f) := by
  rw [updateSource, updateSource, updateSource]
  dsimp only
  rw [List.modify_modify_eq]

/-- Names are found by labels alone. -/
theorem physical_updateSource (st : Stage) (s : SourceId) (hf : ∀ t, (f t).label = t.label) :
    cluster.physical (st.updateSource s f) = cluster.physical st := by
  have hlabels : (st.sources.modify s f).map Source.label = st.sources.map Source.label := by
    refine List.ext_getElem? fun i => ?_
    rw [List.getElem?_map, List.getElem?_map, List.getElem?_modify]
    cases st.sources[i]? with
    | none => rfl
    | some t =>
        by_cases hi : s = i
        · simp [hi, hf]
        · simp [hi]
  have hfind : (st.updateSource s f).find? = st.find? := by
    funext label
    have hcomp : (fun t : Source => t.label == label) = (· == label) ∘ Source.label := rfl
    rw [find?, find?, hcomp, ← List.findIdx?_map, ← List.findIdx?_map, updateSource, hlabels]
  funext schema
  simp only [cluster, updateSource, sourceMap]
  rw [← hfind]
  rfl

/-! ### Attempts on the stage -/

/-- What an attempt to open from it makes of a source, and what the attempt comes to. -/
def Source.attempted (s : SourceId) (t : Source) : Except Error Connection × Source :=
  if t.behaviour.failAfter.any fun limit => limit ≤ t.opened then
    (.error (t.behaviour.openError.getD connectionRefused), { t with attempts := t.attempts + 1 })
  else
    (.ok ⟨s, t.opened⟩, { t with attempts := t.attempts + 1, opened := t.opened + 1 })

/-- What an attempt to close a connection makes of its source, and what the attempt comes to. -/
def Source.released (serial : Nat) (t : Source) : Except Error Unit × Source :=
  if t.behaviour.failClose then (.error closeRefused, t)
  else
    (.ok (), { t with
      closed := if t.closed.contains serial then t.closed else serial :: t.closed })

theorem openAlone_of_none (h : st.source? s = none) :
    surroundings.openAlone s st = (.error connectionRefused, st) := by
  have hbegun : (surroundings.beginOpen s st).2 = st := by
    simp only [surroundings, beginOpen, stateM_bind_apply, stateM_get_apply, h]
    rfl
  rw [Surroundings.openAlone, hbegun]
  simp only [surroundings, finishOpen, Action.bind_apply, Action.get_apply, h]
  rfl

theorem openAlone_of_some (h : st.source? s = some source) :
    surroundings.openAlone s st =
      ((source.attempted s).1, st.updateSource s fun t => (t.attempted s).2) := by
  have hbegun : (surroundings.beginOpen s st).2 =
      st.updateSource s fun t => { t with attempts := t.attempts + 1 } := by
    simp only [surroundings, beginOpen, stateM_bind_apply, stateM_get_apply, h]
    rfl
  have hsource : (st.updateSource s fun t => { t with attempts := t.attempts + 1 }).source? s =
      some { source with attempts := source.attempts + 1 } := by
    rw [source?_updateSource, if_pos rfl, h]
    rfl
  rw [Surroundings.openAlone, hbegun]
  simp only [surroundings, finishOpen, Action.bind_apply, Action.get_apply, hsource]
  split
  next hfails =>
    have hattempted : source.attempted s = (.error (source.behaviour.openError.getD
        connectionRefused), { source with attempts := source.attempts + 1 }) := if_pos hfails
    rw [hattempted, updateSource_congr h (g := fun t => (t.attempted s).2) (by rw [hattempted])]
    rfl
  next hopens =>
    have hattempted : source.attempted s = (.ok ⟨s, source.opened⟩,
        { source with attempts := source.attempts + 1, opened := source.opened + 1 }) :=
      if_neg hopens
    rw [hattempted, updateSource_congr h (f := fun t => (t.attempted s).2)
      (g := (fun t => { t with opened := t.opened + 1 }) ∘
        fun t => { t with attempts := t.attempts + 1 }) (by rw [hattempted]; rfl),
      ← updateSource_updateSource]
    rfl

theorem Source.attempted_cases (s : SourceId) (t : Source) :
    (∃ e, t.attempted s = (.error e, { t with attempts := t.attempts + 1 })) ∨
      t.attempted s =
        (.ok ⟨s, t.opened⟩, { t with attempts := t.attempts + 1, opened := t.opened + 1 }) := by
  unfold attempted
  split
  · exact .inl ⟨_, rfl⟩
  · exact .inr rfl

theorem Source.attempted_own {t t' : Source} (hopened : t.opened = t'.opened)
    (hbehaviour : t.behaviour = t'.behaviour) (s : SourceId) :
    (t.attempted s).1 = (t'.attempted s).1 ∧
      (t.attempted s).2.opened = (t'.attempted s).2.opened := by
  unfold attempted
  rw [hopened, hbehaviour]
  split <;> exact ⟨rfl, rfl⟩

@[simp]
theorem Source.attempted_label (s : SourceId) (t : Source) :
    (t.attempted s).2.label = t.label := by
  obtain ⟨e, h⟩ | h := t.attempted_cases s <;> rw [h]

@[simp]
theorem Source.attempted_behaviour (s : SourceId) (t : Source) :
    (t.attempted s).2.behaviour = t.behaviour := by
  obtain ⟨e, h⟩ | h := t.attempted_cases s <;> rw [h]

@[simp]
theorem Source.attempted_closed (s : SourceId) (t : Source) :
    (t.attempted s).2.closed = t.closed := by
  obtain ⟨e, h⟩ | h := t.attempted_cases s <;> rw [h]

theorem Source.opened_le_attempted (s : SourceId) (t : Source) :
    t.opened ≤ (t.attempted s).2.opened := by
  obtain ⟨e, h⟩ | h := t.attempted_cases s
  · exact Nat.le_of_eq (by rw [h])
  · rw [h]
    exact Nat.le_succ _

theorem Source.seen_attempted {n : Nat} {t : Source} (h : (t.attempted s).1 ≠ .ok ⟨s, n⟩) :
    (t.attempted s).2.seen n = t.seen n := by
  obtain ⟨e, hfails⟩ | hopens := t.attempted_cases s
  · rw [hfails]
    rfl
  · rw [hopens] at h ⊢
    have hne : t.opened ≠ n := fun heq => h (by rw [heq])
    have hlt : n < t.opened + 1 ↔ n < t.opened := by omega
    simp only [seen, hlt]

theorem Source.attempted_eq_ok {c : Connection} {t : Source}
    (h : (t.attempted s).1 = .ok c) : c.source = s ∧ (t.attempted s).1 = .ok ⟨s, c.serial⟩ := by
  obtain ⟨e, hfails⟩ | hopens := t.attempted_cases s
  · rw [hfails] at h
    cases h
  · rw [hopens] at h ⊢
    cases h
    exact ⟨rfl, rfl⟩

/-- A connection that was just opened is not closed. -/
theorem Source.seen_of_attempted {n : Nat} {t : Source} (hcounted : ∀ n ∈ t.closed, n < t.opened)
    (h : (t.attempted s).1 = .ok ⟨s, n⟩) :
    t.seen n = none ∧ (t.attempted s).2.seen n = some (false, t.behaviour) := by
  obtain ⟨e, hfails⟩ | hopens := t.attempted_cases s
  · rw [hfails] at h
    cases h
  · rw [hopens] at h ⊢
    cases h
    have hfresh : t.opened ∉ t.closed := fun hmem => Nat.lt_irrefl _ (hcounted _ hmem)
    simp [seen, hfresh]

theorem Source.released_cases (serial : Nat) (t : Source) :
    t.released serial = (.error closeRefused, t) ∨ t.released serial = (.ok (), { t with
      closed := if t.closed.contains serial then t.closed else serial :: t.closed }) := by
  unfold released
  split
  · exact .inl rfl
  · exact .inr rfl

@[simp]
theorem Source.released_label (serial : Nat) (t : Source) :
    (t.released serial).2.label = t.label := by
  obtain h | h := t.released_cases serial <;> rw [h]

@[simp]
theorem Source.released_behaviour (serial : Nat) (t : Source) :
    (t.released serial).2.behaviour = t.behaviour := by
  obtain h | h := t.released_cases serial <;> rw [h]

@[simp]
theorem Source.released_opened (serial : Nat) (t : Source) :
    (t.released serial).2.opened = t.opened := by
  obtain h | h := t.released_cases serial <;> rw [h]

theorem Source.mem_released {serial n : Nat} {t : Source} (h : n ∈ (t.released serial).2.closed) :
    n = serial ∨ n ∈ t.closed := by
  obtain heq | heq := t.released_cases serial
  · rw [heq] at h
    exact .inr h
  · rw [heq] at h
    dsimp only at h
    split at h
    · exact .inr h
    · exact List.mem_cons.mp h

theorem Source.seen_released {serial n : Nat} {t : Source} (h : n ≠ serial) :
    (t.released serial).2.seen n = t.seen n := by
  obtain heq | heq := t.released_cases serial
  · rw [heq]
  · have hcontains : (if t.closed.contains serial then t.closed
        else serial :: t.closed).contains n = t.closed.contains n := by
      split
      · rfl
      · simp [h]
    rw [heq, seen, seen]
    dsimp only
    rw [hcontains]

theorem Source.seen_eq_some {n : Nat} {t : Source} {closed : Bool}
    {behaviour : Behaviour Instruction} : t.seen n = some (closed, behaviour) ↔
      n < t.opened ∧ t.closed.contains n = closed ∧ t.behaviour = behaviour := by
  unfold seen
  split <;> simp [*]

/-- What an attempt to close comes to can be told from what is seen of the connection. -/
theorem Source.released_of_seen {n : Nat} {t : Source} {closed : Bool}
    {behaviour : Behaviour Instruction} (h : t.seen n = some (closed, behaviour)) :
    (t.released n).1 = (if behaviour.failClose then .error closeRefused else .ok ()) ∧
      (t.released n).2.seen n = some (closed || !behaviour.failClose, behaviour) := by
  obtain ⟨hlt, hclosed, rfl⟩ := seen_eq_some.mp h
  unfold released
  cases t.behaviour.failClose with
  | true => simpa using h
  | false =>
      refine ⟨rfl, seen_eq_some.mpr ⟨hlt, ?_, rfl⟩⟩
      by_cases hmem : n ∈ t.closed <;> simp [hmem]

variable {c : Connection}

theorem closeAlone_of_some (h : st.source? c.source = some source) :
    surroundings.closeAlone c st =
      ((source.released c.serial).1,
        st.updateSource c.source fun t => (t.released c.serial).2) := by
  have hbegun : (surroundings.beginClose c st).2 = st := by
    simp only [surroundings, beginClose, stateM_bind_apply, stateM_get_apply, h]
    rfl
  rw [Surroundings.closeAlone, hbegun]
  simp only [surroundings, finishClose, Action.bind_apply, Action.get_apply, h]
  split
  next hfails =>
    have hreleased : source.released c.serial = (.error closeRefused, source) := if_pos hfails
    rw [hreleased, updateSource_self h (by rw [hreleased])]
    rfl
  next hcloses =>
    have hreleased : source.released c.serial = (.ok (), { source with
        closed := if source.closed.contains c.serial then source.closed
          else c.serial :: source.closed }) := if_neg hcloses
    rw [hreleased, updateSource_congr h (f := fun t => (t.released c.serial).2)
      (g := fun t => { t with
        closed := if t.closed.contains c.serial then t.closed else c.serial :: t.closed })
      (by rw [hreleased])]
    rfl

/-! ### Parts of the stage -/

theorem Calm.updateSource (h : st.Calm) (s : SourceId)
    (hbehaviour : ∀ t, (f t).behaviour = t.behaviour)
    (hcounted : ∀ t, st.source? s = some t → ∀ n ∈ (f t).closed, n < (f t).opened) :
    (st.updateSource s f).Calm where
  uncued := h.uncued.updateSource s hbehaviour
  counted := by
    intro other t hsource
    rw [source?_updateSource] at hsource
    split at hsource
    next heq =>
      subst heq
      obtain ⟨t₀, ht₀, rfl⟩ := Option.map_eq_some_iff.mp hsource
      exact hcounted t₀ ht₀
    next => exact h.counted hsource

theorem ofSource_updateSource_of_ne {other : SourceId} (h : other ≠ s) :
    outlook.ofSource (st.updateSource s f) other = outlook.ofSource st other := by
  simp only [outlook, source?_updateSource, if_neg (Ne.symm h)]

theorem ofConnection_updateSource (hf : ∀ t, st.source? c.source = some t → s = c.source →
    (f t).seen c.serial = t.seen c.serial) :
    outlook.ofConnection (st.updateSource s f) c = outlook.ofConnection st c := by
  simp only [outlook, source?_updateSource]
  split
  next heq =>
    cases hsource : st.source? c.source with
    | none => rfl
    | some t => exact hf t hsource heq
  next => rfl

/-- A connection that was never opened is not closed. -/
theorem isClosed_of_calm (h : st.Calm) (c : Connection) :
    st.isClosed c = ((outlook.ofConnection st c).map Prod.fst).getD false := by
  simp only [isClosed, outlook]
  cases hsource : st.source? c.source with
  | none => rfl
  | some t =>
      simp only [Option.map_some, Option.getD_some, Option.bind_some, Source.seen]
      split
      · rfl
      next hnot =>
        simpa using fun hmem => absurd (h.counted hsource _ hmem) hnot

theorem source_of_seen {p : Bool × Behaviour Instruction}
    (h : outlook.ofConnection st c = some p) :
    ∃ t, st.source? c.source = some t ∧ t.seen c.serial = some p :=
  Option.bind_eq_some_iff.mp h

theorem source_of_isSome (h : (outlook.ofConnection st c).isSome) :
    ∃ t, st.source? c.source = some t ∧ c.serial < t.opened := by
  obtain ⟨p, hp⟩ := Option.isSome_iff_exists.mp h
  obtain ⟨t, hs, hseen⟩ := source_of_seen hp
  exact ⟨t, hs, (Source.seen_eq_some.mp hseen).1⟩

/-- What becomes of an attempt on the stage depends on its source alone. -/
theorem apart : Apart surroundings outlook where
  beginOpen_steps := fun source h => (h.uncued.beginOpen source).1
  beginClose_steps := fun c h => (h.uncued.beginClose c).1
  open_calm := by
    intro st s h
    cases hs : st.source? s with
    | none => rwa [openAlone_of_none hs]
    | some t =>
        rw [openAlone_of_some hs]
        refine h.updateSource s (Source.attempted_behaviour s) fun t ht n hn => ?_
        rw [Source.attempted_closed] at hn
        exact Nat.lt_of_lt_of_le (h.counted ht n hn) (t.opened_le_attempted s)
  open_physical := by
    intro st s h
    cases hs : st.source? s with
    | none => rw [openAlone_of_none hs]
    | some t =>
        rw [openAlone_of_some hs]
        exact physical_updateSource st s (Source.attempted_label s)
  open_own := by
    intro st st' s h h' hsame
    simp only [outlook] at hsame
    cases hs : st.source? s with
    | none =>
        rw [hs] at hsame
        have hs' := Option.map_eq_none_iff.mp hsame.symm
        rw [openAlone_of_none hs, openAlone_of_none hs']
        exact ⟨rfl, by simp [outlook, hs, hs'], fun c hc => by cases hc⟩
    | some t =>
        rw [hs] at hsame
        obtain ⟨t', hs', heq⟩ := Option.map_eq_some_iff.mp hsame.symm
        obtain ⟨hopened, hbehaviour⟩ := Prod.mk.inj heq
        obtain ⟨hresult, hcount⟩ := Source.attempted_own hopened.symm hbehaviour.symm s
        rw [openAlone_of_some hs, openAlone_of_some hs']
        refine ⟨hresult, ?_, fun c hc => ?_⟩
        · simp [outlook, source?_updateSource, hs, hs', hcount, hbehaviour]
        · obtain ⟨rfl, hc⟩ := Source.attempted_eq_ok hc
          have hseen := (Source.seen_of_attempted (h.counted hs) hc).2
          have hseen' := (Source.seen_of_attempted (h'.counted hs') (hresult.symm.trans hc)).2
          simp [outlook, source?_updateSource, hs, hs', hseen, hseen', hbehaviour]
  open_new := by
    intro st s c h hc
    cases hs : st.source? s with
    | none =>
        rw [openAlone_of_none hs] at hc
        cases hc
    | some t =>
        rw [openAlone_of_some hs] at hc ⊢
        obtain ⟨rfl, hc⟩ := Source.attempted_eq_ok hc
        obtain ⟨hnone, hseen⟩ := Source.seen_of_attempted (h.counted hs) hc
        simp [outlook, source?_updateSource, hs, hnone, hseen]
  open_source := by
    intro st s other h hne
    cases hs : st.source? s with
    | none => rw [openAlone_of_none hs]
    | some t =>
        rw [openAlone_of_some hs]
        exact ofSource_updateSource_of_ne hne
  open_connection := by
    intro st s c h hc
    cases hs : st.source? s with
    | none => rw [openAlone_of_none hs]
    | some t =>
        rw [openAlone_of_some hs] at hc ⊢
        refine ofConnection_updateSource fun t' ht' heq => Source.seen_attempted fun hok => hc ?_
        subst heq
        cases hs.symm.trans ht'
        exact hok
  close_calm := by
    intro st c h hc
    obtain ⟨t, hs, hlt⟩ := source_of_isSome hc
    rw [closeAlone_of_some hs]
    refine h.updateSource c.source (Source.released_behaviour c.serial) fun t' ht' n hn => ?_
    cases hs.symm.trans ht'
    rw [Source.released_opened]
    rcases Source.mem_released hn with rfl | hn
    · exact hlt
    · exact h.counted hs n hn
  close_physical := by
    intro st c h hc
    obtain ⟨t, hs, -⟩ := source_of_isSome hc
    rw [closeAlone_of_some hs]
    exact physical_updateSource st c.source (Source.released_label c.serial)
  close_own := by
    intro st st' c h h' hc hsame
    obtain ⟨p, hp⟩ := Option.isSome_iff_exists.mp hc
    obtain ⟨t, hs, hseen⟩ := source_of_seen hp
    obtain ⟨t', hs', hseen'⟩ := source_of_seen (hsame.symm.trans hp)
    obtain ⟨hresult, hafter⟩ := Source.released_of_seen hseen
    obtain ⟨hresult', hafter'⟩ := Source.released_of_seen hseen'
    rw [closeAlone_of_some hs, closeAlone_of_some hs']
    refine ⟨hresult.trans hresult'.symm, ?_⟩
    simp [outlook, source?_updateSource, hs, hs', hafter, hafter']
  close_source := by
    intro st c h hc
    obtain ⟨t, hs, -⟩ := source_of_isSome hc
    rw [closeAlone_of_some hs]
    funext other
    simp only [outlook, source?_updateSource]
    split
    · cases st.source? other <;> simp
    · rfl
  close_connection := by
    intro st c d h hc hne
    obtain ⟨t, hs, -⟩ := source_of_isSome hc
    rw [closeAlone_of_some hs]
    refine ofConnection_updateSource fun t' _ heq => Source.seen_released fun hserial => hne ?_
    cases c
    cases d
    cases heq
    cases hserial
    rfl
  isClosed_eq := by
    intro st st' c h h' hsame
    show st.isClosed c = st'.isClosed c
    rw [isClosed_of_calm h, isClosed_of_calm h', hsame]

end Stage

end SessionBroker
