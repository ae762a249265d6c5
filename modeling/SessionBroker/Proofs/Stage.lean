import SessionBroker.Proofs.Closing
import SessionBroker.Stage.Rehearsal

/-!
# The stage as surroundings

What the theorems about runs ask of the surroundings, the stage does: its sources number
their connections, so none is opened twice, and they close on request only. Both follow from how the
counts of a source move.
-/

namespace SessionBroker

namespace Stage

/-! ## Counts -/

/-- How many connections a source opened, and which it closed; a source that is still to be
created has done nothing. -/
def counts (st : Stage) (s : SourceId) : Nat × List Nat :=
  ((st.source? s).map fun t => (t.opened, t.closed)).getD (0, [])

variable {st st' : Stage} {s t : SourceId} {c : Connection}

theorem isClosed_eq (st : Stage) (c : Connection) :
    st.isClosed c = (st.counts c.source).2.contains c.serial := by
  unfold isClosed counts
  cases st.source? c.source <;> rfl

theorem source?_updateSource (st : Stage) (s t : SourceId) (f : Source → Source) :
    (st.updateSource s f).source? t = if s = t then (st.source? t).map f else st.source? t := by
  simp only [source?, updateSource, List.getElem?_modify]
  split <;> simp

/-- A change that counts nothing. -/
theorem counts_updateSource {f : Source → Source}
    (hf : ∀ t, (f t).opened = t.opened ∧ (f t).closed = t.closed) :
    (st.updateSource s f).counts = st.counts := by
  funext t
  rw [counts, source?_updateSource]
  split
  · cases h : st.source? t with
    | none => simp [counts, h]
    | some source => simp [counts, h, hf source]
  · rfl

theorem counts_addSource (st : Stage) (label : String) (behaviour : Behaviour Instruction) :
    (st.addSource (.new label behaviour)).counts = st.counts := by
  funext t
  simp only [counts, source?, addSource]
  rcases Nat.lt_trichotomy t st.sources.length with h | h | h
  · rw [List.getElem?_append_left h]
  · subst h
    simp [Source.new]
  · rw [List.getElem?_eq_none (by simp; omega), List.getElem?_eq_none (by omega)]

theorem counts_of_stirs (h : surroundings.Stirs st st') : st'.counts = st.counts := by
  have hanswer : ∀ {α : Type} (failure : Option Error) (a : α),
      (RegistryScript.registry.answer failure a st).2 = st := by
    intro α failure a
    cases failure <;> rfl
  have hregistry : ∀ {env : Stage} {r}, surroundings.cluster.registry env = some r →
      (∃ d : Deployment, r = d.registry) ∨ ∃ record : RegistryScript, r = record.registry := by
    intro env r hr
    simp only [surroundings, cluster] at hr
    split at hr
    · obtain ⟨record, -, rfl⟩ := Option.map_eq_some_iff.mp hr
      exact .inr ⟨record, rfl⟩
    next d _ =>
      cases hr
      exact .inl ⟨d, rfl⟩
  cases h with
  | beginOpen source =>
      simp only [surroundings, beginOpen, stateM_bind_apply, stateM_get_apply]
      cases st.source? source with
      | none => rfl
      | some _ => exact counts_updateSource fun _ => ⟨rfl, rfl⟩
  | beginClose c =>
      simp only [surroundings, beginClose, stateM_bind_apply, stateM_get_apply]
      cases st.source? c.source <;> rfl
  | loadNodes hr =>
      obtain ⟨d, rfl⟩ | ⟨record, rfl⟩ := hregistry hr
      · rfl
      · exact congrArg counts (hanswer _ _)
  | loadProperties hr =>
      obtain ⟨d, rfl⟩ | ⟨record, rfl⟩ := hregistry hr
      · rfl
      · exact congrArg counts (hanswer _ _)
  | loadUsers hr =>
      obtain ⟨d, rfl⟩ | ⟨record, rfl⟩ := hregistry hr
      · rfl
      · exact congrArg counts (hanswer _ _)
  | createPool props =>
      simp only [surroundings, cluster, createPool, Action.bind_apply, Action.get_apply]
      generalize Option.bind _ PoolRule.createError = failure
      cases failure with
      | some e => rfl
      | none => exact counts_addSource st _ _

theorem counts_of_finishOpen {r : Except Error Connection}
    (h : surroundings.finishOpen s st = (r, st')) :
    (∃ e, r = .error e ∧ st' = st) ∨ r = .ok ⟨s, (st.counts s).1⟩ ∧
      ∀ t, st'.counts t = if s = t then ((st.counts t).1 + 1, (st.counts t).2) else st.counts t := by
  simp only [surroundings, finishOpen, Action.bind_apply, Action.get_apply] at h
  cases hsource : st.source? s with
  | none =>
      rw [hsource] at h
      cases h
      exact .inl ⟨_, rfl, rfl⟩
  | some source =>
      simp only [hsource] at h
      split at h
      · cases h
        exact .inl ⟨_, rfl, rfl⟩
      · cases h
        refine .inr ⟨by simp [counts, hsource], fun t => ?_⟩
        rw [counts, source?_updateSource]
        by_cases hst : s = t
        · subst hst
          simp [counts, hsource]
        · simp [counts, hst]

theorem counts_of_finishClose {r : Except Error Unit}
    (h : surroundings.finishClose c st = (r, st')) :
    st' = st ∨ ∀ t, (st'.counts t).1 = (st.counts t).1 ∧
      ∀ n ∈ (st'.counts t).2, n ∈ (st.counts t).2 ∨ t = c.source ∧ n = c.serial := by
  simp only [surroundings, finishClose, Action.bind_apply, Action.get_apply] at h
  cases hsource : st.source? c.source with
  | none =>
      rw [hsource] at h
      cases h
      exact .inl rfl
  | some source =>
      simp only [hsource] at h
      split at h
      · cases h
        exact .inl rfl
      · cases h
        refine .inr fun t => ?_
        by_cases ht : c.source = t
        · subst ht
          simp only [counts, source?_updateSource, hsource, if_true, Option.map_some,
            Option.getD_some]
          refine ⟨trivial, fun n hn => ?_⟩
          split at hn
          · exact .inl hn
          · rcases List.mem_cons.mp hn with rfl | hn
            · exact .inr ⟨trivial, rfl⟩
            · exact .inl hn
        · simp only [counts, source?_updateSource, ht, if_false]
          exact ⟨trivial, fun n hn => .inl hn⟩

/-- What happens outside by an instruction counts nothing. -/
theorem counts_of_instruction {i : Instruction} {a : StateM Stage Answer}
    (h : i.step = .outside a) : (a st).2.counts = st.counts := by
  cases i with
  | call => cases h
  | closeConnection => cases h
  | changeSource label d =>
      cases h
      simp only [stateM_bind_apply, stateM_get_apply]
      cases st.find? label with
      | none => rfl
      | some s => exact counts_updateSource fun _ => ⟨rfl, rfl⟩
  | change c =>
      cases h
      rfl
  | reportSources =>
      cases h
      rfl

theorem instruction_of_cue {step : Step Stage} (h : surroundings.Cues step) :
    ∃ i : Instruction, i.step = step := by
  have hcued : ∀ {source moment}, step ∈ cued source moment → ∃ i : Instruction, i.step = step := by
    intro source moment hstep
    obtain ⟨cue, -, hstep⟩ := List.mem_flatMap.mp hstep
    obtain ⟨i, -, hi⟩ := List.mem_map.mp hstep
    exact ⟨i, hi⟩
  obtain ⟨env, ⟨s, hstep⟩ | ⟨c, hstep⟩⟩ := h
  · simp only [surroundings, beginOpen, stateM_bind_apply, stateM_get_apply] at hstep
    cases hsource : env.source? s with
    | none =>
        rw [hsource] at hstep
        cases hstep
    | some source =>
        rw [hsource] at hstep
        exact hcued hstep
  · simp only [surroundings, beginClose, stateM_bind_apply, stateM_get_apply] at hstep
    cases hsource : env.source? c.source with
    | none =>
        rw [hsource] at hstep
        cases hstep
    | some source =>
        rw [hsource] at hstep
        exact hcued hstep

/-! ## Fresh connections -/

/-- What was opened is counted, and was opened once. -/
def Numbered (st : Stage) (es : List Entry) : Prop :=
  (gather Event.opens es).Nodup ∧ ∀ c ∈ gather Event.opens es, c.serial < (st.counts c.source).1

theorem Numbered.of_counts {es : List Entry} (h : st.Numbered es)
    (hcounts : ∀ t, (st.counts t).1 ≤ (st'.counts t).1) : st'.Numbered es :=
  ⟨h.1, fun c hc => Nat.lt_of_lt_of_le (h.2 c hc) (hcounts c.source)⟩

theorem Numbered.record {es : List Entry} (h : st.Numbered es) {e : Entry}
    (hopens : e.event.opens = []) : st.Numbered (es ++ [e]) := by
  unfold Numbered
  rw [gather_append, gather_cons, hopens, gather_nil, List.append_nil, List.append_nil]
  exact h

/-- An attempt to close counts no connection. -/
theorem Numbered.of_finishClose {es : List Entry} (h : st.Numbered es) {r : Except Error Unit}
    (hfinish : surroundings.finishClose c st = (r, st')) : st'.Numbered es := by
  rcases counts_of_finishClose hfinish with rfl | hcounts
  · exact h
  · exact h.of_counts fun t => Nat.le_of_eq (hcounts t).1.symm

theorem keeps_numbered (i : Instruction) : surroundings.Keeps Numbered i.step where
  stirs := fun hstir h => h.of_counts fun t => Nat.le_of_eq (by rw [counts_of_stirs hstir])
  outside := fun hstep h => h.of_counts fun t => Nat.le_of_eq (by rw [counts_of_instruction hstep])
  opened := by
    rintro n s c st st' es hfinish ⟨hnodup, hserial⟩
    rcases counts_of_finishOpen hfinish with ⟨e, hr, -⟩ | ⟨hr, hcounts⟩
    · cases hr
    cases hr
    -- the new serial is the count, and all earlier ones are below it
    have hnew : (⟨s, (st.counts s).1⟩ : Connection) ∉ gather Event.opens es :=
      fun hc => Nat.lt_irrefl _ (hserial _ hc)
    unfold Numbered
    rw [gather_append, gather_cons, gather_nil, List.append_nil]
    refine ⟨List.nodup_append.mpr ⟨hnodup, by simp [Event.opens], ?_⟩, fun d hd => ?_⟩
    · rintro d hd d' hd' rfl
      cases List.mem_singleton.mp hd'
      exact hnew hd
    · rw [hcounts]
      rcases List.mem_append.mp hd with hd | hd
      · have hlt := hserial d hd
        split
        · exact Nat.lt_succ_of_lt hlt
        · exact hlt
      · cases List.mem_singleton.mp hd
        simp
  openFailed := by
    rintro n s err st st' es hfinish h
    rcases counts_of_finishOpen hfinish with ⟨e, -, rfl⟩ | ⟨hr, -⟩
    · exact h.record rfl
    · cases hr
  closed := fun hfinish h => (h.of_finishClose hfinish).record rfl
  closeFailed := fun hfinish h => (h.of_finishClose hfinish).record rfl
  recorded := fun hopens h => h.record hopens

/-- On the stage no connection is opened twice, whatever is played. -/
theorem nodup_opens (depth : Nat) (script : List Instruction) (st : Stage) :
    (gather Event.opens
      (surroundings.run depth (script.map Instruction.step) (.new st)).log.toList).Nodup := by
  have hnumbered : surroundings.Faithful Numbered
      (surroundings.run depth (script.map Instruction.step) (.new st)) := by
    refine Surroundings.faithful_run (fun inner hcue => ?_) depth (fun step hstep => ?_)
      (Surroundings.faithful_new ⟨List.nodup_nil, by simp⟩)
    · obtain ⟨i, rfl⟩ := instruction_of_cue hcue
      exact keeps_numbered i
    · obtain ⟨i, -, rfl⟩ := List.mem_map.mp hstep
      exact keeps_numbered i
  exact hnumbered.env.1

/-! ## Closing on request -/

/-- What is closed was opened before, or at least attempted to close. -/
def Tidy (st : Stage) (asked : List Connection) : Prop :=
  ∀ c, st.isClosed c = true → c.serial < (st.counts c.source).1 ∨ c ∈ asked

theorem Tidy.of_counts {asked : List Connection} (h : st.Tidy asked) (hcounts : st'.counts = st.counts) :
    st'.Tidy asked ∧ ∀ c, st'.isClosed c = true → st.isClosed c = true := by
  have hclosed : st'.isClosed = st.isClosed := by
    funext c
    rw [isClosed_eq, isClosed_eq, hcounts]
  constructor
  · intro c hc
    rw [hclosed] at hc
    rw [hcounts]
    exact h c hc
  · intro c hc
    rwa [← hclosed]

theorem quiet_instruction (i : Instruction) : surroundings.Quiet Tidy i.step :=
  fun _ hstep _ _ h => h.of_counts (counts_of_instruction hstep)

/-- On the stage connections become closed on request only. -/
theorem closesOnRequest : surroundings.ClosesOnRequest Tidy where
  mono := fun hsub h c hc => (h c hc).imp_right fun hasked => hsub hasked
  stirs := fun hstir h => h.of_counts (counts_of_stirs hstir)
  opens := by
    intro s r st st' asked hfinish h
    rcases counts_of_finishOpen hfinish with ⟨e, rfl, rfl⟩ | ⟨rfl, hcounts⟩
    · exact ⟨h, fun c hc => ⟨hc, fun hr => by cases hr⟩⟩
    have hclosed : ∀ c, st'.isClosed c = st.isClosed c := by
      intro c
      rw [isClosed_eq, isClosed_eq, hcounts]
      split <;> rfl
    constructor
    · intro c hc
      rw [hclosed] at hc
      refine (h c hc).imp_left fun hlt => ?_
      rw [hcounts]
      split
      · exact Nat.lt_succ_of_lt hlt
      · exact hlt
    · intro c hc
      have hbefore : st.isClosed c = true := (hclosed c).symm.trans hc
      refine ⟨hbefore, fun hr => (h c hbefore).resolve_left ?_⟩
      cases hr
      exact Nat.lt_irrefl _
  closes := by
    intro c r st st' asked hfinish hasked h
    rcases counts_of_finishClose hfinish with rfl | hcounts
    · exact ⟨h, fun d hd => .inl hd⟩
    have hback : ∀ d, st'.isClosed d = true → st.isClosed d = true ∨ d = c := by
      rintro ⟨t, n⟩ hd
      rw [isClosed_eq, List.contains_iff_mem] at hd
      rcases (hcounts t).2 n hd with hd | ⟨rfl, rfl⟩
      · rw [isClosed_eq, List.contains_iff_mem]
        exact .inl hd
      · exact .inr rfl
    have htidy : st'.Tidy asked := by
      intro d hd
      rw [(hcounts d.source).1]
      rcases hback d hd with hd | rfl
      · exact h d hd
      · exact .inr hasked
    exact ⟨htidy, hback⟩
  cues := by
    intro inner hcue
    obtain ⟨i, rfl⟩ := instruction_of_cue hcue
    exact quiet_instruction i

/-! ## An overlap -/

deriving instance DecidableEq for Except

/-- A stage with one source. While its second connection is opened another session acquires from it,
and while its first one is closed the session that held it is asked whether it is valid. -/
def overlapping (failAfter : Option Nat) : Stage :=
  ⟨[.new "ds" ⟨failAfter, none, false,
      [⟨.opening 1, [.call (.acquire 1 "ds" 1 .connectionStrictly)]⟩,
        ⟨.closing 0, [.call (.isValid 0)]⟩]⟩],
    [], 0, .scripted (.ofList [("s", ["ds"])]) none none⟩

/-- Two sessions; one acquires and releases. -/
def overlap : List Instruction :=
  [.call (.newSession "s"), .call (.newSession "s"), .call (.acquire 0 "ds" 2 .memoryStrictly),
    .call (.release 0)]

/-- The moment at which a third call, an acquisition, begins. -/
def overlapped (failAfter : Option Nat) : World Stage :=
  (surroundings.run 1 ((overlap.take 2).map Instruction.step) (.new (overlapping failAfter))).began
    (some (.acquire 0 "ds" 3 .memoryStrictly))

/-- What that acquisition comes to. -/
def overlappedResult (failAfter : Option Nat) : Except Error (List Connection) × World Stage :=
  World.acquire (surroundings.cluster.logged 2) (surroundings.sources (surroundings.nested 1) 2)
    2 0 "ds" 3 .memoryStrictly (overlapped failAfter)

theorem tidy_overlapping (failAfter : Option Nat) : (overlapping failAfter).Tidy [] := by
  rintro ⟨s, n⟩ hclosed
  cases s with
  | zero => cases hclosed
  | succ s => cases hclosed

/-! ## An interruption -/

/-- A stage with one source. While its second connection is opened, a script is played. -/
def interrupted (script : List Instruction) : Stage :=
  ⟨[.new "ds" ⟨none, none, false, [⟨.opening 1, script⟩]⟩], [], 0,
    .scripted (.ofList [("s", ["ds"])]) none none⟩

/-- A session that acquires a connection, and then asks for two. -/
def interruption : List Instruction :=
  [.call (.newSession "s"), .call (.acquire 0 "ds" 1 .memoryStrictly),
    .call (.acquire 0 "ds" 2 .memoryStrictly)]

theorem tidy_interrupted (script : List Instruction) : (interrupted script).Tidy [] := by
  rintro ⟨s, n⟩ hclosed
  cases s with
  | zero => cases hclosed
  | succ s => cases hclosed

end Stage

end SessionBroker
