import SessionBroker.Proofs.Growth
import SessionBroker.Proofs.Validity

/-!
# What an acquisition hands out

An acquisition reads what is held before it opens what is missing. A release of the same session
that begins inside its attempts closes what was read, and the acquisition hands it out all the same.
This is the only way for a closed connection to be handed out: what the acquisition opened itself is
open, and what it reused is open unless such a release has taken it out.
-/

namespace SessionBroker

namespace World.Settled

variable {ε : Type} {w : World ε} {n s : Nat} {pre mid post : List Entry} {c : Connection}

/-- A connection is taken out after it joined. -/
theorem kept_before_drained (h : w.Settled) (heq : w.log.toList = pre ++ post)
    {entries : List (String × List Connection)} (hdrained : ⟨n, .drained s entries⟩ ∈ pre)
    (hc : c ∈ entries.flatMap Prod.snd) : c ∈ gather (Event.keepsIn s) pre := by
  have hpos : 0 < (gather (Event.drainsFrom s) pre).count c :=
    List.count_pos_iff.mpr (mem_gather.mpr ⟨n, _, hdrained, by simpa [Event.drainsFrom] using hc⟩)
  have hledger := h.count_held_at heq s c
  exact List.count_pos_iff.mp (by omega)

/-- A call that leaves something in a piece of a run began in that piece. -/
theorem begun_within {ε : Type} {w u u' : World ε} (h : w.Settled) {n : Nat} {new rest : List Entry}
    (hnew : Stretch none u u' new) (hlog : w.log.toList = u.log.toList ++ (new ++ rest)) {e : Event}
    (he : ⟨n, e⟩ ∈ new) {call : Option Call} (hbegun : ⟨n, .begun call⟩ ∈ w.log.toList) :
    ⟨n, .begun call⟩ ∈ new := by
  have hrange : u.calls ≤ n ∧ n < u'.calls := (hnew.numbered _ he).resolve_left (by simp)
  obtain ⟨call', body, o, view, hfinished⟩ := hnew.finished n hrange.1 hrange.2
  have hbegun' : ⟨n, .begun call'⟩ ∈ new := by
    rw [← mem_eventsOf, hfinished.events_eq]
    exact List.mem_cons_self
  have hmem : ⟨n, .begun call'⟩ ∈ w.log.toList := by
    rw [hlog]
    exact List.mem_append_right _ (List.mem_append_left _ hbegun')
  obtain ⟨_, _, _, _, ht⟩ := h.transcript hbegun
  rwa [(ht.begun_eq hbegun).trans (ht.begun_eq hmem).symm]

section Touching

variable (hfresh : (gather Event.opens w.log.toList).Nodup) (hcallers : w.OnlyCallsClose)

include hfresh hcallers

/-- Until it joins a session, nobody attempts to close what a successful call opened. -/
theorem untouched_of_unkept (h : w.Settled) (heq : w.log.toList = pre ++ post) {source : SourceId}
    (hopened : ⟨n, .opened source c⟩ ∈ w.log.toList) {a : Answer} {view : Option View}
    (hended : ⟨n, .ended (.answered a) view⟩ ∈ w.log.toList) (hunkept : c ∉ gather Event.keeps pre) :
    c ∉ gather Event.touches pre := by
  intro htouched
  obtain ⟨m, e, he, hce⟩ := mem_gather.mp htouched
  obtain ⟨p, q, rfl⟩ := List.append_of_mem he
  rw [List.append_assoc, List.cons_append] at heq
  have hmem : ⟨m, e⟩ ∈ w.log.toList := by simp [heq]
  obtain ⟨call, hbegun⟩ := h.begun_of_touched hcallers hmem hce
  rcases h.touched_cases hfresh heq hbegun hce with
    ⟨-, ⟨source', hopened'⟩, err, view', hfailed⟩ | ⟨t, entries, -, hdrained, hentries⟩
  · cases opener_unique hfresh hopened hopened'
    obtain ⟨call', body, o, view₀, ht⟩ := h.transcript hended
    have ho := (ht.ended_eq hended).1.trans (ht.ended_eq hfailed).1.symm
    cases ho
  · have hkept := keepsIn_subset (h.kept_before_drained heq hdrained hentries)
    rw [gather_append, List.mem_append] at hunkept
    exact hunkept (.inl hkept)

/-- If somebody attempts to close what a session holds, a release of the session has taken it out. -/
theorem released_of_touched (h : w.Settled) (heq : w.log.toList = pre ++ (mid ++ post))
    (hheld : c ∈ (replay s .empty pre).all) (htouched : c ∈ gather Event.touches (pre ++ mid)) :
    ∃ n entries, ⟨n, .begun (some (.release s))⟩ ∈ w.log.toList ∧
      ⟨n, .drained s entries⟩ ∈ mid ∧ c ∈ entries.flatMap Prod.snd := by
  have huntouched := h.untouched_of_held hfresh hcallers heq hheld
  rw [gather_append, List.mem_append] at htouched
  obtain ⟨n, e, he, hce⟩ := mem_gather.mp (htouched.resolve_left huntouched)
  obtain ⟨p, q, rfl⟩ := List.append_of_mem he
  have hsplit : w.log.toList = (pre ++ p) ++ ⟨n, e⟩ :: (q ++ post) := by simp [heq]
  have hmem : ⟨n, e⟩ ∈ w.log.toList := by simp [hsplit]
  obtain ⟨call, hbegun⟩ := h.begun_of_touched hcallers hmem hce
  have hjoined := (mem_replay hheld).resolve_left (by simp)
  rcases h.touched_cases hfresh hsplit hbegun hce with ⟨hnot, -⟩ |
    ⟨t, entries, rfl, hdrained, hentries⟩
  · rw [heq, gather_append, List.mem_append] at hnot
    exact absurd (.inl (keepsIn_subset hjoined)) hnot
  -- it joined one session, so it is that session that was released
  · have hdrainedFrom := h.kept_before_drained hsplit hdrained hentries
    have hst : s = t := by
      refine session_unique hfresh h (c := c) ?_ ?_
      · rw [heq, gather_append]
        exact List.mem_append_left _ hjoined
      · rw [hsplit, gather_append]
        exact List.mem_append_left _ hdrainedFrom
    subst hst
    refine ⟨n, entries, hbegun, ?_, hentries⟩
    rcases List.mem_append.mp hdrained with hdrained | hdrained
    · exact absurd hheld ((h.unheld_of_drained hfresh heq hdrained hentries).1 s)
    · exact List.mem_append_left _ hdrained

omit hcallers in
/-- Before an acquisition keeps what it opened, none of it has joined a session. -/
theorem unkept_before_kept (h : w.Settled) {name : String} {count : Nat} {mode : AcquisitionMode}
    {opened : List Connection} (hc : c ∈ opened)
    (hlog : w.log.toList = pre ++
      ((if mode.keepsNew then [⟨n, .kept s name opened⟩] else []) ++ post))
    {source : SourceId} (hopened : ⟨n, .opened source c⟩ ∈ w.log.toList)
    (hbegun : ⟨n, .begun (some (.acquire s name count mode))⟩ ∈ w.log.toList)
    {a : Answer} {view : Option View} (hended : ⟨n, .ended (.answered a) view⟩ ∈ w.log.toList) :
    c ∉ gather Event.keeps pre := by
  cases mode with
  | memoryStrictly =>
      -- it joins once, and that is yet to come
      intro hkept
      have hpos := List.count_pos_iff.mpr hkept
      have hpos' := List.count_pos_iff.mpr hc
      have honce := count_keeps_le hfresh h c
      rw [hlog] at honce
      simp [AcquisitionMode.keepsNew, Event.keeps] at honce
      omega
  | connectionStrictly =>
      obtain ⟨call, body, o, view', ht⟩ := h.transcript hended
      obtain ⟨rfl, -⟩ := ht.ended_eq hended
      cases ht.begun_eq hbegun
      have hopens : c ∈ body.flatMap Event.opens :=
        (ht.mem_flatMap opens_of_bound).mpr ⟨_, hopened, List.mem_singleton_self c⟩
      have hkeeps : body.flatMap Event.keeps = [] := by
        obtain ⟨s', name', count', mode', hcall, ⟨e, ho, -⟩ | ⟨reused, -, hkeeps⟩⟩ :=
          ht.script.tally.opens_cases hopens
        · cases ho
        · cases hcall
          exact hkeeps
      have hnever := unkept_of_opener hfresh h hopened ht hkeeps
      rw [hlog, gather_append, List.mem_append] at hnever
      exact fun hkept => hnever (.inl hkept)

end Touching

end World.Settled

namespace Surroundings

variable {ε : Type} {k : Surroundings ε} {s count : Nat} {name : String} {mode : AcquisitionMode}
  {cs : List Connection} {c : Connection}

/-- A release that began inside an acquisition took out a connection that the acquisition reused. -/
def Revoked (k : Surroundings ε) (m : Occurrence ε) (s : Nat) (name : String) (c : Connection) :
    Prop :=
  c ∈ m.world.heldFor s name ∧ ∃ n entries,
    ⟨n, .begun (some (.release s))⟩ ∈ m.world.since (m.after k) ∧
      ⟨n, .drained s entries⟩ ∈ m.world.since (m.after k) ∧ c ∈ entries.flatMap Prod.snd

section Handing

variable {m : Occurrence ε} {w : World ε} (h : w.Settled)
  (hfresh : (gather Event.opens w.log.toList).Nodup) (hcallers : w.OnlyCallsClose)
  (hle : (m.after k).log.toList <+: w.log.toList)
  (hstep : m.step = .call (.acquire s name count mode))
  (hresult : (m.result k).1 = .answered (.connections cs))

include h hfresh hcallers hle hstep hresult

/-- Nobody has attempted to close what an acquisition opened itself. -/
theorem untouched_of_own {w₂ : World ε} {opened : List Connection} {new : List Entry}
    (hserved : k.Served m.depth m.number s name count mode cs opened new m.begun w₂ (m.result k).2)
    (hc : c ∈ opened) :
    c ∈ gather Event.opens (m.after k).log.toList ∧
      c ∉ gather Event.touches (m.after k).log.toList := by
  obtain ⟨rest, hrest⟩ := hle
  have hw₂ : (m.result k).2 = if mode.keepsNew then w₂.keep m.number s name opened else w₂ := by
    simpa [List.ne_nil_of_mem hc] using hserved.world_eq
  have hafter : (m.after k).log.toList = w₂.log.toList ++
      ((if mode.keepsNew then [⟨m.number, .kept s name opened⟩] else []) ++
        [⟨m.number, .ended (m.result k).1 (k.view? (m.result k).2 m.step)⟩]) := by
    rw [m.after_eq, World.log_record, hw₂, log_kept (List.append_nil _).symm, List.nil_append,
      List.append_assoc]
  have hown : c ∈ (eventsOf m.number new).flatMap Event.opens := by rwa [hserved.opens_eq]
  obtain ⟨e, he, hce⟩ := mem_flatMap_eventsOf.mp hown
  have hmem : ⟨m.number, e⟩ ∈ w₂.log.toList := by
    rw [hserved.stretch.log_eq]
    exact List.mem_append_right _ he
  have hinLog : ∀ e ∈ (m.after k).log.toList, e ∈ w.log.toList := by
    intro e he
    rw [← hrest]
    exact List.mem_append_left _ he
  obtain ⟨source, rfl⟩ : ∃ source, e = .opened source c := by
    cases e with
    | opened source d => exact ⟨source, by rw [List.mem_singleton.mp hce]⟩
    | _ => cases hce
  have hopened : ⟨m.number, .opened source c⟩ ∈ w.log.toList :=
    hinLog _ (by rw [hafter]; exact List.mem_append_left _ hmem)
  have hbegun : ⟨m.number, .begun (some (.acquire s name count mode))⟩ ∈ w.log.toList := by
    refine hinLog _ ?_
    rw [hafter, hserved.stretch.log_eq, Occurrence.begun, hstep, World.began, World.log_record]
    simp [call?, Occurrence.number]
  have hended : ⟨m.number, .ended (.answered (.connections cs)) (k.view? (m.result k).2 m.step)⟩ ∈
      w.log.toList := by
    refine hinLog _ ?_
    rw [hafter, hresult]
    simp
  have hlog := hrest.symm
  rw [hafter, List.append_assoc, List.append_assoc] at hlog
  have hunkept := h.unkept_before_kept hfresh hc hlog hopened hbegun hended
  have huntouched := h.untouched_of_unkept hfresh hcallers hlog hopened hended hunkept
  rw [hafter, gather_append, gather_append]
  refine ⟨List.mem_append_left _ (mem_gather.mpr ⟨_, _, hmem, List.mem_singleton_self c⟩), ?_⟩
  cases mode <;> simpa [AcquisitionMode.keepsNew, Event.touches] using huntouched

omit hstep hresult in
/-- If somebody has attempted to close what an acquisition reused, it was revoked. -/
theorem revoked_of_touched
    (hheld : ∀ t, (m.world.session t).holdings = replay t .empty m.world.log.toList)
    (hreused : c ∈ m.world.heldFor s name)
    (htouched : c ∈ gather Event.touches (m.after k).log.toList) : k.Revoked m s name c := by
  obtain ⟨new, hnew⟩ := k.stretch_exec m.depth m.step m.world
  have hafter : (m.after k).log.toList = m.world.log.toList ++ new := hnew.log_eq
  obtain ⟨rest, hrest⟩ := hle
  have hlog : w.log.toList = m.world.log.toList ++ (new ++ rest) := by
    rw [← hrest, hafter, List.append_assoc]
  have hall : c ∈ (replay s .empty m.world.log.toList).all := by
    rw [← hheld]
    exact Holdings.mem_all_iff.mpr ⟨name, hreused⟩
  rw [hafter] at htouched
  obtain ⟨n, entries, hbegun, hdrained, hentries⟩ :=
    h.released_of_touched hfresh hcallers hlog hall htouched
  refine ⟨hreused, n, entries, ?_⟩
  rw [since_eq hafter]
  exact ⟨h.begun_within hnew hlog hdrained hbegun, hdrained, hentries⟩

/-- A closed connection that is handed out was revoked. -/
theorem revoked_of_closed {good : ε → List Connection → Prop}
    (hheld : ∀ t, (m.world.session t).holdings = replay t .empty m.world.log.toList)
    (henv : k.ClosedOnRequest good (m.after k).env (m.after k).log.toList) (hc : c ∈ cs)
    (hclosed : k.isClosed (m.after k).env c = true) : k.Revoked m s name c := by
  obtain ⟨-, hacquire⟩ := Occurrence.acquired_of_result hstep hresult
  obtain ⟨opened, new, w₂, hserved⟩ := acquire_served (Nat.lt_succ_self m.number) hacquire
  rw [hserved.batch_eq] at hc
  rcases List.mem_append.mp hc with hreused | hopened
  · have hreused : c ∈ m.world.heldFor s name := List.mem_of_mem_take hreused
    refine revoked_of_touched h hfresh hcallers hle hheld hreused ?_
    -- what is held was opened, so it is closed because somebody asked for it
    refine (henv.2 c hclosed).resolve_right fun hunopened => hunopened ?_
    obtain ⟨new, hnew⟩ := k.stretch_exec m.depth m.step m.world
    have hafter : (m.after k).log.toList = m.world.log.toList ++ new := hnew.log_eq
    obtain ⟨rest, hrest⟩ := hle
    rw [hafter, List.append_assoc] at hrest
    have hall : c ∈ (m.world.session s).holdings.all := Holdings.mem_all_iff.mpr ⟨name, hreused⟩
    rw [hheld] at hall
    rw [hafter, gather_append]
    exact List.mem_append_left _ (h.opened_of_held hrest.symm hall)
  · obtain ⟨hopens, huntouched⟩ :=
      untouched_of_own h hfresh hcallers hle hstep hresult hserved hopened
    exact absurd (henv.2 c hclosed) fun hcases => hcases.elim huntouched fun hnot => hnot hopens

end Handing

end Surroundings

/-! ## Main result -/

namespace Stage

/-- The second acquisition of a session that is released while its second connection is opened. -/
def overtaken : Occurrence Stage :=
  ⟨1, .call (.acquire 0 "ds" 2 .memoryStrictly),
    surroundings.run 1 ((interruption.take 2).map Instruction.step)
      (.new (interrupted [.call (.release 0)]))⟩

theorem result_overtaken :
    (overtaken.result surroundings).1 = .answered (.connections [⟨0, 0⟩, ⟨0, 1⟩]) := by
  refine Occurrence.result_of_acquired rfl ?_ ?_
  · decide +kernel
  · decide +kernel

theorem overtaken_mem :
    overtaken ∈ surroundings.tourRun 1 (interruption.map Instruction.step)
      (.new (interrupted [.call (.release 0)])) :=
  surroundings.mem_tourRun 1 ((interruption.take 2).map Instruction.step) _ [] _

end Stage

end SessionBroker
