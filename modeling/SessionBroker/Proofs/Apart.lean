import SessionBroker.Proofs.Transparency

/-!
# Sources and connections apart

What is to be seen of the surroundings is split into parts: one for each source, on which alone it
depends what becomes of the attempts to open from it, and one for each connection, on which alone it
depends what becomes of the attempts to close it. An attempt touches its own part and leaves all
others alone.

Two worlds may then agree in some parts and differ in the others. `Agree` is used in two ways: for
two runs side by side, and for one run before and after a step that is of no concern here.
-/

namespace SessionBroker

/-! ## Parts of the surroundings -/

/-- What is to be seen of surroundings in which nothing runs inside attempts. -/
structure Outlook (ε α β : Type) where
  calm : ε → Prop
  ofSource : ε → SourceId → α
  /-- How a connection stands; none that was never opened does. -/
  ofConnection : ε → Connection → Option β

namespace Surroundings

variable {ε : Type}

/-- An attempt to open, if nothing runs inside it. -/
def openAlone (k : Surroundings ε) (source : SourceId) : Action ε Connection := fun env =>
  k.finishOpen source (k.beginOpen source env).2

/-- An attempt to close, if nothing runs inside it. -/
def closeAlone (k : Surroundings ε) (c : Connection) : Action ε Unit := fun env =>
  k.finishClose c (k.beginClose c env).2

end Surroundings

/-- Attempts depend on their own part of the surroundings, and leave the others alone. The physical
sources stay as they are, and a connection that is opened is a new one. -/
structure Apart {ε α β : Type} (k : Surroundings ε) (o : Outlook ε α β) : Prop where
  beginOpen_steps : ∀ {env} source, o.calm env → (k.beginOpen source env).1 = []
  beginClose_steps : ∀ {env} c, o.calm env → (k.beginClose c env).1 = []
  open_calm : ∀ {env} source, o.calm env → o.calm (k.openAlone source env).2
  open_physical : ∀ {env} source, o.calm env →
    k.cluster.physical (k.openAlone source env).2 = k.cluster.physical env
  /-- What an attempt to open comes to depends on the source alone. -/
  open_own : ∀ {env env'} source, o.calm env → o.calm env' →
    o.ofSource env source = o.ofSource env' source →
      (k.openAlone source env).1 = (k.openAlone source env').1 ∧
      o.ofSource (k.openAlone source env).2 source =
        o.ofSource (k.openAlone source env').2 source ∧
      ∀ c, (k.openAlone source env).1 = .ok c →
        o.ofConnection (k.openAlone source env).2 c = o.ofConnection (k.openAlone source env').2 c
  open_new : ∀ {env source c}, o.calm env → (k.openAlone source env).1 = .ok c →
    o.ofConnection env c = none ∧ (o.ofConnection (k.openAlone source env).2 c).isSome
  open_source : ∀ {env source other}, o.calm env → other ≠ source →
    o.ofSource (k.openAlone source env).2 other = o.ofSource env other
  open_connection : ∀ {env source c}, o.calm env → (k.openAlone source env).1 ≠ .ok c →
    o.ofConnection (k.openAlone source env).2 c = o.ofConnection env c
  close_calm : ∀ {env c}, o.calm env → (o.ofConnection env c).isSome →
    o.calm (k.closeAlone c env).2
  close_physical : ∀ {env c}, o.calm env → (o.ofConnection env c).isSome →
    k.cluster.physical (k.closeAlone c env).2 = k.cluster.physical env
  /-- What an attempt to close comes to depends on the connection alone. -/
  close_own : ∀ {env env' c}, o.calm env → o.calm env' → (o.ofConnection env c).isSome →
    o.ofConnection env c = o.ofConnection env' c →
      (k.closeAlone c env).1 = (k.closeAlone c env').1 ∧
      (o.ofConnection (k.closeAlone c env).2 c).isSome ∧
      o.ofConnection (k.closeAlone c env).2 c = o.ofConnection (k.closeAlone c env').2 c
  close_source : ∀ {env c}, o.calm env → (o.ofConnection env c).isSome →
    o.ofSource (k.closeAlone c env).2 = o.ofSource env
  close_connection : ∀ {env c d}, o.calm env → (o.ofConnection env c).isSome → d ≠ c →
    o.ofConnection (k.closeAlone c env).2 d = o.ofConnection env d
  isClosed_eq : ∀ {env env' c}, o.calm env → o.calm env' →
    o.ofConnection env c = o.ofConnection env' c → k.isClosed env c = k.isClosed env' c

/-! ## Attempts to open from a source -/

/-- Whether an event is one of an attempt to open from the source. -/
def Event.isOpenFrom (source : SourceId) : Event → Bool
  | .opening s | .opened s _ | .openFailed s => s == source
  | _ => false

/-- The attempts to open from a source, and what they came to. -/
def opensFrom (source : SourceId) (es : List Entry) : List Event :=
  (es.map Entry.event).filter (Event.isOpenFrom source)

theorem opensFrom_append (source : SourceId) (es es' : List Entry) :
    opensFrom source (es ++ es') = opensFrom source es ++ opensFrom source es' := by
  rw [opensFrom, List.map_append, List.filter_append]
  rfl

/-! ## Worlds that agree in parts -/

section Agreement

variable {ε α β : Type} {k : Surroundings ε} {o : Outlook ε α β}

/-- Two worlds agree on some of the sources and on some of the connections. -/
structure Agree (k : Surroundings ε) (o : Outlook ε α β) (S : SourceId → Prop)
    (C : Connection → Prop) (u v : World ε) : Prop where
  calm_left : o.calm u.env
  calm_right : o.calm v.env
  physical_eq : k.cluster.physical u.env = k.cluster.physical v.env
  source_eq : ∀ source, S source → o.ofSource u.env source = o.ofSource v.env source
  opens_eq : ∀ source, S source →
    opensFrom source u.log.toList = opensFrom source v.log.toList
  connection_eq : ∀ c, C c → o.ofConnection u.env c = o.ofConnection v.env c

namespace Agree

variable {S S' : SourceId → Prop} {C C' : Connection → Prop} {u v w : World ε}

theorem refl (h : o.calm u.env) : Agree k o S C u u :=
  ⟨h, h, rfl, fun _ _ => rfl, fun _ _ => rfl, fun _ _ => rfl⟩

theorem symm (h : Agree k o S C u v) : Agree k o S C v u where
  calm_left := h.calm_right
  calm_right := h.calm_left
  physical_eq := h.physical_eq.symm
  source_eq := fun source hs => (h.source_eq source hs).symm
  opens_eq := fun source hs => (h.opens_eq source hs).symm
  connection_eq := fun c hc => (h.connection_eq c hc).symm

theorem trans (h : Agree k o S C u v) (h' : Agree k o S C v w) : Agree k o S C u w where
  calm_left := h.calm_left
  calm_right := h'.calm_right
  physical_eq := h.physical_eq.trans h'.physical_eq
  source_eq := fun source hs => (h.source_eq source hs).trans (h'.source_eq source hs)
  opens_eq := fun source hs => (h.opens_eq source hs).trans (h'.opens_eq source hs)
  connection_eq := fun c hc => (h.connection_eq c hc).trans (h'.connection_eq c hc)

theorem mono (h : Agree k o S C u v) (hS : ∀ source, S' source → S source)
    (hC : ∀ c, C' c → C c) : Agree k o S' C' u v where
  calm_left := h.calm_left
  calm_right := h.calm_right
  physical_eq := h.physical_eq
  source_eq := fun source hs => h.source_eq source (hS source hs)
  opens_eq := fun source hs => h.opens_eq source (hS source hs)
  connection_eq := fun c hc => h.connection_eq c (hC c hc)

/-- Of the logs only the attempts to open matter. -/
theorem of_same {u' v' : World ε} (h : Agree k o S C u v) (henv : u'.env = u.env)
    (henv' : v'.env = v.env)
    (hlog : ∀ source, opensFrom source u'.log.toList = opensFrom source u.log.toList)
    (hlog' : ∀ source, opensFrom source v'.log.toList = opensFrom source v.log.toList) :
    Agree k o S C u' v' where
  calm_left := henv ▸ h.calm_left
  calm_right := henv' ▸ h.calm_right
  physical_eq := by rw [henv, henv', h.physical_eq]
  source_eq := by rw [henv, henv']; exact h.source_eq
  opens_eq := fun source hs => by rw [hlog, hlog', h.opens_eq source hs]
  connection_eq := by rw [henv, henv']; exact h.connection_eq

end Agree

/-! ## Attempts in calm surroundings -/

/-- An attempt that nothing runs inside: its result, and the world it leaves. -/
structure Leaves {κ : Type} (n : Nat) (alone : Action ε κ) (events : Except Error κ → List Event)
    (w : World ε) (after : Except Error κ × World ε) : Prop where
  result_eq : after.1 = (alone w.env).1
  env_eq : after.2.env = (alone w.env).2
  sessions_eq : after.2.sessions = w.sessions
  log_eq : after.2.log.toList = w.log.toList ++ (events after.1).map fun e => ⟨n, e⟩

variable (h : Apart k o) (nested : Step ε → StateM (World ε) Unit) (n : Nat) {w : World ε}

include h

theorem attemptOpen_leaves (source : SourceId) (hcalm : o.calm w.env) :
    Leaves n (k.openAlone source) (openEvents source) w (k.attemptOpen nested n source w) := by
  have hnone : (k.beginOpen source (w.record n (.opening source)).env).1 = [] :=
    h.beginOpen_steps source hcalm
  rw [Surroundings.attemptOpen_apply]
  dsimp only
  rw [hnone, Surroundings.forM_nil_apply]
  refine ⟨rfl, rfl, rfl, ?_⟩
  rw [World.log_record]
  show (w.record n (.opening source)).log.toList ++ _ = _
  rw [World.log_record, List.append_assoc]
  dsimp only
  generalize k.finishOpen source (k.beginOpen source (w.record n (.opening source)).env).2 = ending
  cases ending.1 <;> rfl

theorem attemptClose_leaves (c : Connection) (hcalm : o.calm w.env) :
    Leaves n (k.closeAlone c) (closeEvents c) w (k.attemptClose nested n c w) := by
  have hnone : (k.beginClose c (w.record n (.closing c)).env).1 = [] :=
    h.beginClose_steps c hcalm
  rw [Surroundings.attemptClose_apply]
  dsimp only
  rw [hnone, Surroundings.forM_nil_apply]
  refine ⟨rfl, rfl, rfl, ?_⟩
  rw [World.log_record]
  show (w.record n (.closing c)).log.toList ++ _ = _
  rw [World.log_record, List.append_assoc]
  dsimp only
  generalize k.finishClose c (k.beginClose c (w.record n (.closing c)).env).2 = ending
  cases ending.1 <;> rfl

end Agreement

/-! ## What a step touches -/

section Touching

variable {ε α β : Type}

/-- From one world to another nothing was touched but attempts to open from some sources, some
connections, and the connections that were opened. -/
structure Touched (k : Surroundings ε) (o : Outlook ε α β) (S : SourceId → Prop)
    (C : Connection → Prop) (new : List Connection) (w w' : World ε) : Prop where
  agree : Agree k o (fun source => ¬ S source) (fun c => ¬ C c ∧ c ∉ new) w' w
  known : ∀ c, (o.ofConnection w.env c).isSome → (o.ofConnection w'.env c).isSome
  fresh : ∀ c ∈ new, o.ofConnection w.env c = none ∧ (o.ofConnection w'.env c).isSome
  opens_eq : ∃ es, w'.log.toList = w.log.toList ++ es ∧ gather Event.opens es = new

variable {k : Surroundings ε} {o : Outlook ε α β} {S S' : SourceId → Prop}
  {C C' : Connection → Prop} {new new' : List Connection} {w w₁ w' : World ε}

namespace Touched

theorem calm (h : Touched k o S C new w w') : o.calm w'.env := h.agree.calm_left

theorem not_mem_of_isSome (h : Touched k o S C new w w') {c : Connection}
    (hc : (o.ofConnection w.env c).isSome) : c ∉ new := by
  intro hnew
  rw [(h.fresh c hnew).1] at hc
  cases hc

theorem mono (h : Touched k o S C new w w') (hS : ∀ source, S source → S' source)
    (hC : ∀ c, C c → C' c) : Touched k o S' C' new w w' where
  agree := h.agree.mono (fun source => mt (hS source)) fun c hc => ⟨mt (hC c) hc.1, hc.2⟩
  known := h.known
  fresh := h.fresh
  opens_eq := h.opens_eq

/-- What is touched later may have been opened before. -/
theorem trans (h : Touched k o S C new w w₁) (h' : Touched k o S C' new' w₁ w')
    (hC : ∀ c, C' c → C c ∨ c ∈ new) : Touched k o S C (new ++ new') w w' where
  agree := by
    have hlater : Agree k o (fun source => ¬ S source) (fun c => ¬ C c ∧ c ∉ new ++ new') w' w₁ :=
      h'.agree.mono (fun _ hs => hs) fun c hc =>
        ⟨fun hc' => (hC c hc').elim hc.1 fun hnew => hc.2 (List.mem_append_left _ hnew),
          fun hnew => hc.2 (List.mem_append_right _ hnew)⟩
    exact hlater.trans (h.agree.mono (fun _ hs => hs) fun c hc =>
      ⟨hc.1, fun hnew => hc.2 (List.mem_append_left _ hnew)⟩)
  known := fun c hc => h'.known c (h.known c hc)
  fresh := by
    intro c hc
    rcases List.mem_append.mp hc with hc | hc
    · exact ⟨(h.fresh c hc).1, h'.known c (h.fresh c hc).2⟩
    · refine ⟨Option.not_isSome_iff_eq_none.mp fun hbefore => ?_, (h'.fresh c hc).2⟩
      exact h'.not_mem_of_isSome (h.known c hbefore) hc
  opens_eq := by
    obtain ⟨es, hlog, hopens⟩ := h.opens_eq
    obtain ⟨es', hlog', hopens'⟩ := h'.opens_eq
    refine ⟨es ++ es', ?_, ?_⟩
    · rw [hlog', hlog, List.append_assoc]
    · rw [gather_append, hopens, hopens']

/-- Events that are no attempts to open touch nothing. -/
theorem of_still {es : List Entry} (hcalm : o.calm w.env) (henv : w'.env = w.env)
    (hlog : w'.log.toList = w.log.toList ++ es)
    (hquiet : ∀ e ∈ es, ∀ source, e.event.isOpenFrom source = false)
    (hopens : gather Event.opens es = []) : Touched k o S C [] w w' where
  agree := by
    refine (Agree.refl hcalm).of_same henv rfl (fun source => ?_) fun _ => rfl
    have hnone : opensFrom source es = [] := by
      refine List.filter_eq_nil_iff.mpr fun e he => ?_
      obtain ⟨entry, hentry, rfl⟩ := List.mem_map.mp he
      exact Bool.not_eq_true _ ▸ hquiet entry hentry source
    rw [hlog, opensFrom_append, hnone, List.append_nil]
  known := fun c hc => henv ▸ hc
  fresh := fun c hc => absurd hc List.not_mem_nil
  opens_eq := ⟨es, hlog, hopens⟩

/-- Questions before all else are not seen. -/
theorem of_asking {n : Nat} {qs : List Question} (h : Touched k o S C new (w.asking n qs) w') :
    Touched k o S C new w w' where
  agree := h.agree.of_same rfl rfl (fun _ => rfl) fun _ => rfl
  known := h.known
  fresh := h.fresh
  opens_eq := h.opens_eq

end Touched

variable (h : Apart k o) {nested : Step ε → StateM (World ε) Unit} {n : Nat}

include h

theorem touched_attemptOpen (source : SourceId) (hcalm : o.calm w.env) :
    Touched k o (· = source) (fun _ => False)
      ((openEvents source (k.attemptOpen nested n source w).1).flatMap Event.opens) w
      (k.attemptOpen nested n source w).2 := by
  have hleaves := attemptOpen_leaves h nested n source hcalm
  have hnew : ∀ c, c ∈ (openEvents source (k.attemptOpen nested n source w).1).flatMap Event.opens ↔
      (k.openAlone source w.env).1 = .ok c := by
    intro c
    rw [hleaves.result_eq]
    cases (k.openAlone source w.env).1 with
    | error e => simp [openEvents, Event.opens]
    | ok d => simp [openEvents, Event.opens, eq_comm]
  have helsewhere : ∀ other, other ≠ source → opensFrom other
      ((openEvents source (k.attemptOpen nested n source w).1).map fun e => ⟨n, e⟩) = [] := by
    intro other hne
    cases (k.attemptOpen nested n source w).1 <;>
      simp [opensFrom, openEvents, Event.isOpenFrom, hne.symm]
  refine ⟨⟨?_, hcalm, ?_, fun other hother => ?_, fun other hother => ?_, fun c hc => ?_⟩,
    fun c hc => ?_, fun c hc => ?_, _, hleaves.log_eq, ?_⟩
  · rw [hleaves.env_eq]
    exact h.open_calm source hcalm
  · rw [hleaves.env_eq, h.open_physical source hcalm]
  · rw [hleaves.env_eq, h.open_source hcalm hother]
  · rw [hleaves.log_eq, opensFrom_append, helsewhere other hother, List.append_nil]
  · rw [hleaves.env_eq, h.open_connection hcalm (mt (hnew c).mpr hc.2)]
  · rw [hleaves.env_eq]
    by_cases hopened : (k.openAlone source w.env).1 = .ok c
    · exact (h.open_new hcalm hopened).2
    · rwa [h.open_connection hcalm hopened]
  · rw [hleaves.env_eq]
    exact h.open_new hcalm ((hnew c).mp hc)
  · rw [gather, List.flatMap_map]

theorem touched_attemptClose {c : Connection} (hcalm : o.calm w.env)
    (hc : (o.ofConnection w.env c).isSome) :
    Touched k o S (· = c) [] w (k.attemptClose nested n c w).2 := by
  have hleaves := attemptClose_leaves h nested n c hcalm
  have hquiet : ∀ source, opensFrom source
      ((closeEvents c (k.attemptClose nested n c w).1).map fun e => ⟨n, e⟩) = [] := by
    intro source
    cases (k.attemptClose nested n c w).1 <;> simp [opensFrom, closeEvents, Event.isOpenFrom]
  refine ⟨⟨?_, hcalm, ?_, fun other _ => ?_, fun other _ => ?_, fun d hd => ?_⟩,
    fun d hd => ?_, fun d hd => absurd hd List.not_mem_nil, _, hleaves.log_eq, ?_⟩
  · rw [hleaves.env_eq]
    exact h.close_calm hcalm hc
  · rw [hleaves.env_eq, h.close_physical hcalm hc]
  · rw [hleaves.env_eq, h.close_source hcalm hc]
  · rw [hleaves.log_eq, opensFrom_append, hquiet, List.append_nil]
  · rw [hleaves.env_eq, h.close_connection hcalm hc hd.1]
  · rw [hleaves.env_eq]
    by_cases hdc : d = c
    · rw [hdc]
      exact (h.close_own hcalm hcalm hc rfl).2.1
    · rwa [h.close_connection hcalm hc hdc]
  · cases (k.attemptClose nested n c w).1 <;> rfl

theorem touched_opens {source : SourceId} {m : Nat} {rs : List (Except Error Connection)}
    (hcalm : o.calm w.env)
    (hopen : inTurn (List.replicate m (k.attemptOpen nested n source)) w = (rs, w')) :
    Touched k o (· = source) (fun _ => False)
      ((rs.flatMap (openEvents source)).flatMap Event.opens) w w' ∧ w'.sessions = w.sessions := by
  induction m generalizing w rs with
  | zero =>
      cases hopen
      exact ⟨.of_still hcalm rfl (List.append_nil _).symm (by simp) rfl, rfl⟩
  | succ m ih =>
      rw [List.replicate_succ, inTurn_cons] at hopen
      cases hopen
      have hfirst : Touched k o _ _ _ w (k.attemptOpen nested n source w).2 :=
        touched_attemptOpen h source hcalm
      obtain ⟨hrest, hsessions⟩ := ih hfirst.calm rfl
      refine ⟨?_, hsessions.trans (attemptOpen_leaves h nested n source hcalm).sessions_eq⟩
      rw [List.flatMap_cons, List.flatMap_append]
      exact hfirst.trans hrest fun c hc => .inl hc

theorem touched_closes {cs : List Connection} {rs : List (Except Error Unit)}
    (hcalm : o.calm w.env) (hcs : ∀ c ∈ cs, (o.ofConnection w.env c).isSome)
    (hclose : inTurn (cs.map (k.attemptClose nested n)) w = (rs, w')) :
    Touched k o S (· ∈ cs) [] w w' ∧ w'.sessions = w.sessions := by
  induction cs generalizing w rs with
  | nil =>
      cases hclose
      exact ⟨.of_still hcalm rfl (List.append_nil _).symm (by simp) rfl, rfl⟩
  | cons c cs ih =>
      rw [List.map_cons, inTurn_cons] at hclose
      cases hclose
      have hfirst : Touched k o S (· = c) [] w (k.attemptClose nested n c w).2 :=
        touched_attemptClose h hcalm (hcs c List.mem_cons_self)
      obtain ⟨hrest, hsessions⟩ := ih hfirst.calm
        (fun d hd => hfirst.known d (hcs d (List.mem_cons_of_mem c hd))) rfl
      refine ⟨?_, hsessions.trans (attemptClose_leaves h nested n c hcalm).sessions_eq⟩
      have hfirst' : Touched k o S (· ∈ c :: cs) [] w (k.attemptClose nested n c w).2 :=
        hfirst.mono (fun _ hs => hs) fun d hd => hd ▸ List.mem_cons_self
      exact hfirst'.trans hrest fun d hd => .inl (List.mem_cons_of_mem c hd)

end Touching

end SessionBroker
