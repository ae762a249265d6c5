import SessionBroker.Proofs.Ledger

/-!
# Held connections are open

When a call attempts to close a connection, no session holds it, and none will. So if only
calls close connections, and connections become closed in no other way, then what a session
holds is open whenever it is asked, also by calls that run inside an attempt.

The first half is read off the log, where a prefix stands for a moment: `replay` over the prefix
is what a session holds then. The second half is an invariant of the surroundings that every
move keeps (`Sound`): a connection is closed only if an attempt to close it is in the log.
-/

namespace SessionBroker

/-! ## Attempts to close -/

namespace World.Settled

variable {ε : Type} {w : World ε} {n : Nat} {pre post : List Entry} {e : Event} {c : Connection}

/-- The ledger of a session at a moment of a run. -/
theorem count_held_at (h : w.Settled) (heq : w.log.toList = pre ++ post) (s : Nat) (c : Connection) :
    (replay s .empty pre).all.count c + (gather (Event.drainsFrom s) pre).count c =
      (gather (Event.keepsIn s) pre).count c := by
  have hhonest : ∀ p e q, pre = p ++ e :: q → e.event.Honest s (replay s .empty p) := by
    rintro p e q rfl
    rw [List.append_assoc, List.cons_append] at heq
    exact h.honest heq s
  have hledger := count_replay hhonest c
  simpa using hledger

/-- A connection that never joins a session is held at no moment. -/
theorem unheld_of_unkept (hnot : c ∉ gather Event.keeps pre) (s : Nat) :
    c ∉ (replay s .empty pre).all :=
  fun hc => hnot (keepsIn_subset ((mem_replay hc).resolve_left (by simp)))

theorem isBound_of_touches (hc : c ∈ e.touches) : e.isBound = false := by
  cases e <;> first | rfl | cases hc

/-- A connection that was taken out is held nowhere from then on. -/
theorem unheld_of_drained (h : w.Settled) (hfresh : (gather Event.opens w.log.toList).Nodup)
    (heq : w.log.toList = pre ++ post) {entries : List (String × List Connection)} {t : Nat}
    (hdrained : ⟨n, .drained t entries⟩ ∈ pre) (hc : c ∈ entries.flatMap Prod.snd) :
    (∀ s, c ∉ (replay s .empty pre).all) ∧ c ∉ gather Event.keeps post := by
  have hpos : 0 < (gather (Event.drainsFrom t) pre).count c :=
    List.count_pos_iff.mpr (mem_gather.mpr ⟨n, _, hdrained, by simpa [Event.drainsFrom] using hc⟩)
  have hledger := h.count_held_at heq t c
  have honce := count_keeps_le hfresh h c
  rw [heq, gather_append, List.count_append] at honce
  have hle := count_keepsIn_le t pre c
  -- it joined once, and that once was taken out: there is none left to be held or to join
  constructor
  · intro s hs
    have hheld := List.count_pos_iff.mpr hs
    have hledger' := h.count_held_at heq s c
    by_cases hst : s = t
    · subst hst
      omega
    · have hadd := count_keepsIn_add_le hst pre c
      omega
  · intro hk
    have hkept := List.count_pos_iff.mpr hk
    omega

/-- What a call attempts to close it rolls back, or it is a release that has taken it out. -/
theorem touched_cases (h : w.Settled) (hfresh : (gather Event.opens w.log.toList).Nodup)
    (heq : w.log.toList = pre ++ ⟨n, e⟩ :: post) {call : Call}
    (hbegun : ⟨n, .begun (some call)⟩ ∈ w.log.toList) (hc : c ∈ e.touches) :
    (c ∉ gather Event.keeps w.log.toList ∧ (∃ source, ⟨n, .opened source c⟩ ∈ w.log.toList) ∧
        ∃ err view, ⟨n, .ended (.failed err) view⟩ ∈ w.log.toList) ∨
      ∃ s entries, call = .release s ∧ ⟨n, .drained s entries⟩ ∈ pre ∧
        c ∈ entries.flatMap Prod.snd := by
  have hmem : ⟨n, e⟩ ∈ w.log.toList := by simp [heq]
  obtain ⟨call', body, o, view, ht⟩ := h.transcript hmem
  cases ht.begun_eq hbegun
  have hcloses := ht.script.closes_of_touches
    ((ht.mem_flatMap touches_of_bound).mpr ⟨e, hmem, hc⟩)
  rcases ht.script.tally.closes_cases rfl hcloses with ⟨hopens, hkeeps, err, rfl⟩ | hdrains
  · obtain ⟨source, hopened⟩ := ht.exists_opened hopens
    exact .inl ⟨unkept_of_opener hfresh h hopened ht hkeeps, ⟨source, hopened⟩, err, view,
      ht.mem_iff.mpr (.inr (.inr rfl))⟩
  · obtain ⟨s, entries, rest, rfl, hentries⟩ := ht.script.drained_first hdrains
    have hcall := (ht.script.drained List.mem_cons_self hentries).1
    refine .inr ⟨s, entries, Option.some.inj hcall, ?_, hentries⟩
    -- the attempt is not the first event of its call, and the first took `c` out
    obtain ⟨before, after, hbody, hpre⟩ := ht.split heq (isBound_of_touches hc)
    rw [← mem_eventsOf, hpre]
    cases before with
    | nil =>
        rw [← (List.cons.inj hbody).1] at hc
        cases hc
    | cons x before =>
        rw [(List.cons.inj hbody).1]
        simp

/-- When a call attempts to close a connection, no session holds it, and none will. -/
theorem unheld_of_touched (h : w.Settled) (hfresh : (gather Event.opens w.log.toList).Nodup)
    (heq : w.log.toList = pre ++ ⟨n, e⟩ :: post) {call : Call}
    (hbegun : ⟨n, .begun (some call)⟩ ∈ w.log.toList) (hc : c ∈ e.touches) :
    (∀ s, c ∉ (replay s .empty pre).all) ∧ c ∉ gather Event.keeps post := by
  rcases h.touched_cases hfresh heq hbegun hc with ⟨hnot, -⟩ | ⟨s, entries, -, hdrained, hentries⟩
  · rw [heq, gather_append, gather_cons, List.mem_append, List.mem_append] at hnot
    exact ⟨unheld_of_unkept fun hk => hnot (.inl hk), fun hk => hnot (.inr (.inr hk))⟩
  · have hpre := h.unheld_of_drained hfresh heq hdrained hentries
    rw [gather_cons, List.mem_append] at hpre
    exact ⟨hpre.1, fun hk => hpre.2 (.inr hk)⟩

/-- What is held has been opened. -/
theorem opened_of_held (h : w.Settled) (heq : w.log.toList = pre ++ post) {s : Nat}
    (hc : c ∈ (replay s .empty pre).all) : c ∈ gather Event.opens pre := by
  have hkept := (mem_replay hc).resolve_left (by simp)
  obtain ⟨n, e, he, hbatch⟩ := mem_gather.mp (keepsIn_subset hkept)
  cases e with
  | kept t name batch =>
      obtain ⟨p, q, rfl⟩ := List.append_of_mem he
      rw [List.append_assoc, List.cons_append] at heq
      obtain ⟨call, body, o, view, ht⟩ := h.transcript (n := n) (e := .kept t name batch)
        (by simp [heq])
      obtain ⟨before, after, hbody, hpre⟩ := ht.split heq rfl
      have hopens := ht.script.opened_before_kept hbody hbatch
      have hown : c ∈ (eventsOf n p).flatMap Event.opens := by
        rw [hpre]
        exact hopens
      obtain ⟨e, he, hc⟩ := mem_flatMap_eventsOf.mp hown
      rw [gather_append]
      exact List.mem_append_left _ (mem_gather.mpr ⟨n, e, he, hc⟩)
  | _ => cases hbatch

/-- If only calls close connections, whatever touches one belongs to a call. -/
theorem begun_of_touched (h : w.Settled)
    (hcallers : ∀ n c, ⟨n, .closing c⟩ ∈ w.log.toList →
      ∃ call, ⟨n, .begun (some call)⟩ ∈ w.log.toList)
    (hmem : ⟨n, e⟩ ∈ w.log.toList) (hc : c ∈ e.touches) :
    ∃ call, ⟨n, .begun (some call)⟩ ∈ w.log.toList := by
  -- an attempt that ended began in the same step
  obtain ⟨call', body, o, view, ht⟩ := h.transcript hmem
  have hcloses := ht.script.closes_of_touches
    ((ht.mem_flatMap touches_of_bound).mpr ⟨e, hmem, hc⟩)
  obtain ⟨e', he', hc'⟩ := (ht.mem_flatMap closes_of_bound).mp hcloses
  have hclosing := closing_of_mem (e := ⟨n, e'⟩) hc'
  rw [hclosing] at he'
  exact hcallers n c he'

/-- If only calls close connections, then nothing that is held was ever attempted to close. -/
theorem untouched_of_held (h : w.Settled) (hfresh : (gather Event.opens w.log.toList).Nodup)
    (hcallers : ∀ n c, ⟨n, .closing c⟩ ∈ w.log.toList →
      ∃ call, ⟨n, .begun (some call)⟩ ∈ w.log.toList)
    (heq : w.log.toList = pre ++ post) {s : Nat} (hc : c ∈ (replay s .empty pre).all) :
    c ∉ gather Event.touches pre := by
  intro htouched
  obtain ⟨n, e, he, hce⟩ := mem_gather.mp htouched
  obtain ⟨p, q, rfl⟩ := List.append_of_mem he
  rw [List.append_assoc, List.cons_append] at heq
  have hmem : ⟨n, e⟩ ∈ w.log.toList := by simp [heq]
  obtain ⟨call, hbegun⟩ := h.begun_of_touched hcallers hmem hce
  obtain ⟨hunheld, hunkept⟩ := h.unheld_of_touched hfresh heq hbegun hce
  rw [gather_append, List.mem_append] at hunkept
  have hlater : e.keepsIn s = [] := by
    cases e <;> first | rfl | cases hce
  rw [replay_append] at hc
  rcases mem_replay hc with hc | hc
  · exact hunheld s hc
  · rw [gather_cons, hlater, List.nil_append] at hc
    exact hunkept (.inl (keepsIn_subset hc))

end World.Settled

/-! ## Main result -/

namespace World

variable {ε : Type}

/-- After a call on it, a session shows what a replay of the log up to then gives. -/
def ShowsReplayed (w : World ε) : Prop :=
  ∀ pre n o v post call s, w.log.toList = pre ++ ⟨n, .ended o (some v)⟩ :: post →
    ⟨n, .begun (some call)⟩ ∈ w.log.toList → call.session? = some s →
      v.held = (replay s .empty pre).entries

/-- When a call attempts to close a connection, no session holds it, and it joins none later. -/
def ClosesUnheld (w : World ε) : Prop :=
  ∀ pre n c post call, w.log.toList = pre ++ ⟨n, .closing c⟩ :: post →
    ⟨n, .begun (some call)⟩ ∈ w.log.toList →
      (∀ s name, c ∉ (replay s .empty pre).heldFor name) ∧ c ∉ gather Event.keeps post

/-- Whatever attempts to close a connection is a call, and no caller. -/
def OnlyCallsClose (w : World ε) : Prop :=
  ∀ n c, ⟨n, .closing c⟩ ∈ w.log.toList → ∃ call, ⟨n, .begun (some call)⟩ ∈ w.log.toList

instance (w : World ε) : Decidable w.OnlyCallsClose :=
  decidable_of_iff
    ((w.log.toList.all fun e => e.event.closes.isEmpty || isCall w.log.toList e.call) = true) <| by
    simp only [List.all_eq_true, Bool.or_eq_true, isCall_iff]
    constructor
    · intro h n c hclosing
      exact (h _ hclosing).resolve_left (by simp [Event.closes])
    · intro h e he
      rcases hcloses : e.event.closes with _ | ⟨c, cs⟩
      · exact .inl rfl
      · have hentry := closing_of_mem (e := e) (c := c) (by simp [hcloses])
        rw [hentry] at he
        exact .inr (h e.call c he)

/-- Sessions are valid now, were valid after every call on them, also after those that ran inside
attempts, and said so whenever they were asked. -/
def AlwaysValid (k : Surroundings ε) (w : World ε) : Prop :=
  (∀ s, k.isValid w s = true) ∧
    (∀ n o v, ⟨n, .ended o (some v)⟩ ∈ w.log.toList → v.valid = true) ∧
    ∀ n s o view, ⟨n, .begun (some (.isValid s))⟩ ∈ w.log.toList →
      ⟨n, .ended o view⟩ ∈ w.log.toList → o = .refused ∨ o = .answered (.flag true)

theorem Settled.closesUnheld {w : World ε} (h : w.Settled)
    (hfresh : (gather Event.opens w.log.toList).Nodup) : w.ClosesUnheld := by
  intro pre n c post call heq hbegun
  obtain ⟨hunheld, hunkept⟩ :=
    h.unheld_of_touched hfresh heq hbegun (e := .closing c) (List.mem_singleton_self c)
  exact ⟨fun s name hc => hunheld s (Holdings.mem_all_iff.mpr ⟨name, hc⟩), hunkept⟩

theorem Settled.showsReplayed {w : World ε} (h : w.Settled) {k : Surroundings ε}
    {E : ε → List Entry → Prop} (hfaithful : k.Faithful E w) : w.ShowsReplayed := by
  intro pre n o v post call s heq hbegun hsession
  obtain ⟨t, call', env, hbegun', hsession', -, hheld, -⟩ := hfaithful.shown pre n o v post heq
  obtain ⟨call₀, body, o', view, ht⟩ := h.transcript hbegun
  have hcall := (ht.begun_eq hbegun).trans
    (ht.begun_eq (by rw [heq]; exact List.mem_append_left _ hbegun')).symm
  cases hcall
  cases hsession.symm.trans hsession'
  exact hheld

theorem Settled.alwaysValid {w : World ε} (h : w.Settled)
    (hfresh : (gather Event.opens w.log.toList).Nodup) (hcallers : w.OnlyCallsClose)
    {k : Surroundings ε} {good : ε → List Connection → Prop}
    (hfaithful : k.Faithful (k.ClosedOnRequest good) w) : AlwaysValid k w := by
  have hopen : ∀ {pre post env s}, w.log.toList = pre ++ post → k.ClosedOnRequest good env pre →
      ((replay s .empty pre).entries.all fun e => e.2.all fun c => !k.isClosed env c) = true := by
    rintro pre post env s heq ⟨-, hclosed⟩
    rw [List.all_eq_true]
    intro e he
    rw [List.all_eq_true]
    intro c hc
    have hheld : c ∈ (replay s .empty pre).all := List.mem_flatMap.mpr ⟨e, he, hc⟩
    rw [Bool.not_eq_true', Bool.eq_false_iff]
    intro htrue
    rcases hclosed c htrue with htouched | hunopened
    · exact h.untouched_of_held hfresh hcallers heq hheld htouched
    · exact hunopened (h.opened_of_held heq hheld)
  have hviews : ∀ n o v, ⟨n, .ended o (some v)⟩ ∈ w.log.toList → v.valid = true := by
    intro n o v hended
    obtain ⟨pre, post, heq⟩ := List.append_of_mem hended
    obtain ⟨s, call, env, -, -, henv, hheld, hvalid⟩ := hfaithful.shown pre n o v post heq
    rw [hvalid, hheld]
    exact hopen heq henv
  refine ⟨?_, hviews, ?_⟩
  · intro s
    rw [Surroundings.isValid, hfaithful.held_eq]
    exact hopen (List.append_nil _).symm hfaithful.env
  · intro n s o view hbegun hended
    obtain ⟨call, body, o', view', ht⟩ := h.transcript hbegun
    obtain ⟨rfl, rfl⟩ := ht.ended_eq hended
    rcases ht.asked s (ht.begun_eq hbegun).symm with rfl | ⟨v, rfl, rfl⟩
    · exact .inl rfl
    · rw [hviews n _ v hended]
      exact .inr rfl

end World

end SessionBroker
