import SessionBroker.Proofs.Independence
import SessionBroker.Proofs.Provenance
import SessionBroker.Proofs.StageParts

/-!
# Interleaved requests

Requests on several sessions that draw on different sources, one after the other. No session notices
the others: each is answered what it would be answered alone, so the order in which the requests of
different sessions come does not matter.

Which connections belong to which session is kept track of by `Owned`: those that it held in the
beginning, and those that its requests opened.
-/

namespace SessionBroker

/-! ## Schedules -/

/-- What belongs to a session, in its order. -/
def ofSession {α : Type} (s : Nat) (xs : List (Nat × α)) : List α :=
  (xs.filter fun x => x.1 == s).map Prod.snd

section OfSession

variable {α : Type} {s t : Nat} {x : α} {xs : List (Nat × α)}

@[simp]
theorem ofSession_cons_self : ofSession s ((s, x) :: xs) = x :: ofSession s xs := by
  simp [ofSession]

theorem ofSession_cons_of_ne (h : t ≠ s) : ofSession s ((t, x) :: xs) = ofSession s xs := by
  simp [ofSession, h]

theorem mem_ofSession : x ∈ ofSession s xs ↔ (s, x) ∈ xs := by
  simp [ofSession]

end OfSession

namespace Surroundings

variable {ε : Type}

/-- Makes requests on sessions, one after the other. -/
def play (k : Surroundings ε) (depth : Nat) (z : List (Nat × Request)) :
    StateM (World ε) (List (Nat × Record)) :=
  z.mapM fun e => do return (e.1, ← k.report depth (.call (e.2.on e.1)))

/-- A session with the schema and the table that it has. -/
def site (k : Surroundings ε) (depth : Nat) (w : World ε) (s : Nat) : Site ε :=
  ⟨k, depth, s, (w.session s).router.schema, (w.session s).router.routes.getD .empty⟩

theorem play_cons (k : Surroundings ε) (depth : Nat) (w : World ε) (s : Nat) (q : Request)
    (z : List (Nat × Request)) (u : World ε) :
    k.play depth ((s, q) :: z) u =
      ((s, ((k.site depth w s).report q u).1) ::
          (k.play depth z ((k.site depth w s).report q u).2).1,
        (k.play depth z ((k.site depth w s).report q u).2).2) := by
  rw [play, List.mapM_cons]
  rfl

theorem site_in {k : Surroundings ε} {depth : Nat} {w : World ε} {s : Nat}
    (hs : s < w.sessions.length) (hroutes : (w.session s).router.routes.isSome) :
    (k.site depth w s).In w := by
  refine ⟨hs, ?_⟩
  obtain ⟨routes, hroutes⟩ := Option.isSome_iff_exists.mp hroutes
  show (w.session s).router =
    ⟨(w.session s).router.schema, some ((w.session s).router.routes.getD _)⟩
  rw [hroutes, Option.getD_some, ← hroutes]

end Surroundings

/-! ## Who owns a connection -/

/-- What sessions own after some requests: also what these opened. -/
def ownedAfter (own : Nat → List Connection) (records : List (Nat × Record)) (s : Nat) :
    List Connection :=
  own s ++ (ofSession s records).flatMap Record.opened

theorem ownedAfter_nil (own : Nat → List Connection) : ownedAfter own [] = own :=
  funext fun _ => List.append_nil _

theorem ownedAfter_cons (own : Nat → List Connection) (s : Nat) (r : Record)
    (records : List (Nat × Record)) :
    ownedAfter own ((s, r) :: records) = ownedAfter (ownedAfter own [(s, r)]) records := by
  funext t
  by_cases h : s = t
  · subst h
    simp [ownedAfter, ofSession]
  · simp [ownedAfter, ofSession, h]

theorem ownedAfter_self (own : Nat → List Connection) (s : Nat) (r : Record) :
    ownedAfter own [(s, r)] s = own s ++ r.opened := by
  simp [ownedAfter, ofSession]

theorem ownedAfter_of_ne (own : Nat → List Connection) {s t : Nat} (r : Record) (h : s ≠ t) :
    ownedAfter own [(s, r)] t = own t := by
  simp [ownedAfter, ofSession, h]

theorem mem_ownedAfter_of_mem {own : Nat → List Connection} {t : Nat} {c : Connection}
    (records : List (Nat × Record)) (h : c ∈ own t) : c ∈ ownedAfter own records t :=
  List.mem_append_left _ h

section Playing

variable {ε α β : Type} {k : Surroundings ε} {o : Outlook ε α β} {own : Nat → List Connection}
  {w u v : World ε} {s t : Nat} {z : List (Nat × Request)}

/-- Each connection that a session holds is its own, and no other session's. The sessions have the
tables that they had in the world `w`. -/
structure Owned (k : Surroundings ε) (o : Outlook ε α β) (own : Nat → List Connection)
    (w u : World ε) : Prop where
  calm : o.calm u.env
  physical_eq : k.cluster.physical u.env = k.cluster.physical w.env
  length_eq : u.sessions.length = w.sessions.length
  router_eq : ∀ s, (u.session s).router = (w.session s).router
  held : ∀ s, ∀ c ∈ (u.session s).holdings.all, c ∈ own s
  known : ∀ s, ∀ c ∈ own s, (o.ofConnection u.env c).isSome
  apart : ∀ s t, s ≠ t → ∀ c ∈ own s, c ∉ own t

/-- What a session holds was opened for it, and so for no other. -/
theorem World.Settled.owned (h : w.Settled) (hcalm : o.calm w.env)
    (hfresh : (gather Event.opens w.log.toList).Nodup)
    (hknown : ∀ c ∈ gather Event.opens w.log.toList, (o.ofConnection w.env c).isSome) :
    Owned k o (fun s => (w.session s).holdings.all) w w := by
  have hopened : ∀ s, ∀ c ∈ (w.session s).holdings.all,
      ∃ name source, OpenedFor w.log.toList s name source c := by
    intro s c hc
    rw [h.held_eq] at hc
    obtain ⟨name, hname⟩ := Holdings.mem_all_iff.mp hc
    exact ⟨name, h.openedFor_of_held List.prefix_rfl hname⟩
  refine ⟨hcalm, rfl, rfl, fun _ => rfl, fun _ _ hc => hc, fun s c hc => ?_, ?_⟩
  · obtain ⟨name, source, n, count, mode, -, he⟩ := hopened s c hc
    exact hknown c (mem_gather.mpr ⟨n, _, he, List.mem_singleton_self c⟩)
  · intro s t hne c hc hc'
    obtain ⟨name, source, hs⟩ := hopened s c hc
    obtain ⟨name', source', ht⟩ := hopened t c hc'
    exact hne (h.openedFor_unique hfresh hs ht).1.symm

namespace Owned

variable (h : Apart k o) (hu : Owned k o own w u) {depth : Nat}

include hu

theorem resolve_eq (s : Nat) :
    (k.site depth w s).resolve u.env = (k.site depth w s).resolve w.env := by
  funext name
  show sourceOf _ (k.cluster.physical u.env _) name = sourceOf _ (k.cluster.physical w.env _) name
  rw [hu.physical_eq]

theorem drawn_eq (s : Nat) (q : Request) :
    (k.site depth w s).drawn u.env q = (k.site depth w s).drawn w.env q := by
  cases q with
  | acquire name count mode => exact congrFun (hu.resolve_eq s) name
  | release => rfl
  | held name => rfl
  | heldNames => rfl
  | isValid => rfl

theorem site_in (hw : (k.site depth w s).In w) : (k.site depth w s).In u :=
  ⟨hu.length_eq ▸ hw.session_lt, (hu.router_eq s).trans hw.router_eq⟩

include h

/-- A request touches the own part of its session, and what it opens is its own from then on. -/
theorem report (hw : (k.site depth w s).In w) (q : Request) :
    Touched k o (· ∈ (k.site depth w s).drawn w.env q) (· ∈ own s)
        ((k.site depth w s).report q u).1.opened u ((k.site depth w s).report q u).2 ∧
      (∀ t, t ≠ s → ((k.site depth w s).report q u).2.session t = u.session t) ∧
      Owned k o (ownedAfter own [(s, ((k.site depth w s).report q u).1)]) w
        ((k.site depth w s).report q u).2 := by
  obtain ⟨htouched, hkeeps⟩ :=
    touched_report h (hu.site_in hw) hu.calm (fun c hc => hu.known s c (hu.held s c hc)) q
  rw [hu.drawn_eq] at htouched
  generalize (k.site depth w s).report q u = after at htouched hkeeps ⊢
  have hnew : ∀ t, ∀ c ∈ after.1.opened, c ∉ own t := fun t c hc hown =>
    htouched.not_mem_of_isSome (hu.known t c hown) hc
  refine ⟨htouched.mono (fun _ hs => hs) (hu.held s), hkeeps.others_eq, htouched.calm,
    htouched.agree.physical_eq.trans hu.physical_eq, hkeeps.length_eq.trans hu.length_eq,
    fun t => ?_, fun t c hc => ?_, fun t c hc => ?_, fun t t' hne c hc hc' => ?_⟩
  · by_cases ht : t = s
    · subst ht
      exact hkeeps.router_eq.trans (hu.router_eq t)
    · rw [hkeeps.others_eq t ht, hu.router_eq]
  · by_cases ht : t = s
    · subst ht
      rw [ownedAfter_self, List.mem_append]
      exact (hkeeps.held c hc).imp_left (hu.held t c)
    · rw [hkeeps.others_eq t ht] at hc
      exact mem_ownedAfter_of_mem _ (hu.held t c hc)
  · by_cases ht : t = s
    · subst ht
      rw [ownedAfter_self, List.mem_append] at hc
      exact hc.elim (fun hc => htouched.known c (hu.known t c hc)) fun hc => (htouched.fresh c hc).2
    · rw [ownedAfter_of_ne own _ (Ne.symm ht)] at hc
      exact htouched.known c (hu.known t c hc)
  -- a connection that was just opened was nobody's before
  · by_cases ht : t = s
    · subst ht
      rw [ownedAfter_self, List.mem_append] at hc
      rw [ownedAfter_of_ne own _ hne] at hc'
      exact hc.elim (fun hc => hu.apart t t' hne c hc hc') fun hc => hnew t' c hc hc'
    · rw [ownedAfter_of_ne own _ (Ne.symm ht)] at hc
      by_cases ht' : t' = s
      · subst ht'
        rw [ownedAfter_self, List.mem_append] at hc'
        exact hc'.elim (hu.apart t t' hne c hc) fun hc' => hnew t c hc' hc
      · rw [ownedAfter_of_ne own _ (Ne.symm ht')] at hc'
        exact hu.apart t t' hne c hc hc'

end Owned

/-! ## All requests -/

section Schedules

variable (h : Apart k o) {depth : Nat}

include h

/-- Requests leave alone what none of their sessions draws on or owns. -/
theorem play_frame (hz : ∀ e ∈ z, (k.site depth w e.1).In w) (hu : Owned k o own w u) :
    Owned k o (ownedAfter own (k.play depth z u).1) w (k.play depth z u).2 ∧
      Agree k o (fun source => ∀ e ∈ z, source ∉ (k.site depth w e.1).drawn w.env e.2)
        (fun c => ∀ e ∈ z, c ∉ ownedAfter own (k.play depth z u).1 e.1) (k.play depth z u).2 u ∧
      ∀ t, (∀ e ∈ z, e.1 ≠ t) → ofSession t (k.play depth z u).1 = [] ∧
        (k.play depth z u).2.session t = u.session t := by
  induction z generalizing own u with
  | nil =>
      show Owned k o (ownedAfter own []) w u ∧ _
      rw [ownedAfter_nil]
      exact ⟨hu, .refl hu.calm, fun _ _ => ⟨rfl, rfl⟩⟩
  | cons e z ih =>
      obtain ⟨s, q⟩ := e
      rw [k.play_cons depth w, ownedAfter_cons]
      obtain ⟨htouched, hothers, hafter⟩ := hu.report h (hz _ List.mem_cons_self) q
      obtain ⟨howned, hagree, hsessions⟩ := ih (fun e he => hz e (List.mem_cons_of_mem _ he)) hafter
      refine ⟨howned, ?_, fun t ht => ?_⟩
      · refine .trans (hagree.mono (fun source hs e he => hs e (List.mem_cons_of_mem _ he))
            fun c hc e he => hc e (List.mem_cons_of_mem _ he))
          (htouched.agree.mono (fun source hs => hs _ List.mem_cons_self) fun c hc => ?_)
        have hnot := mt (mem_ownedAfter_of_mem _) (hc _ List.mem_cons_self)
        rw [ownedAfter_self, List.mem_append] at hnot
        exact not_or.mp hnot
      · have hne : s ≠ t := ht _ List.mem_cons_self
        obtain ⟨hnone, hsession⟩ := hsessions t fun e he => ht e (List.mem_cons_of_mem _ he)
        exact ⟨(ofSession_cons_of_ne hne).trans hnone, hsession.trans (hothers t hne.symm)⟩

/-- A session is answered among the others what it is answered alone. -/
theorem play_alongside {S : SourceId → Prop} (hz : ∀ e ∈ z, (k.site depth w e.1).In w)
    (hown : ∀ q ∈ ofSession s z, ∀ source ∈ (k.site depth w s).drawn w.env q, S source)
    (hothers : ∀ e ∈ z, e.1 ≠ s →
      ∀ source ∈ (k.site depth w e.1).drawn w.env e.2, ¬ S source)
    (hu : Owned k o own w u)
    (hw : Alongside o (k.site depth w s) S ((k.site depth w s).resolve w.env) (· ∈ own s) u v) :
    (ofSession s (k.play depth z u).1).map Record.shown =
        ((k.site depth w s).serve (ofSession s z) v).1.map Record.shown ∧
      Alongside o (k.site depth w s) S ((k.site depth w s).resolve w.env)
        (· ∈ ownedAfter own (k.play depth z u).1 s) (k.play depth z u).2
        ((k.site depth w s).serve (ofSession s z) v).2 := by
  induction z generalizing own u v with
  | nil =>
      show _ ∧ Alongside o _ S _ (· ∈ ownedAfter own [] s) u v
      rw [ownedAfter_nil]
      exact ⟨rfl, hw⟩
  | cons e z ih =>
      obtain ⟨t, q⟩ := e
      have hrest : ∀ e ∈ z, (k.site depth w e.1).In w :=
        fun e he => hz e (List.mem_cons_of_mem _ he)
      have hothers' : ∀ e ∈ z, e.1 ≠ s →
          ∀ source ∈ (k.site depth w e.1).drawn w.env e.2, ¬ S source :=
        fun e he => hothers e (List.mem_cons_of_mem _ he)
      obtain ⟨htouched, hkept, hafter⟩ := hu.report h (hz _ List.mem_cons_self) q
      rw [k.play_cons depth w, ownedAfter_cons]
      by_cases ht : t = s
      · subst ht
        rw [ofSession_cons_self] at hown
        have hq : q.Within fun name => ∀ source,
            (k.site depth w t).resolve w.env name = some source → S source := by
          cases q with
          | acquire name count mode => exact hown _ List.mem_cons_self
          | release => trivial
          | held name => trivial
          | heldNames => trivial
          | isValid => trivial
        obtain ⟨hshown, hside⟩ := report_alongside h hq hw
        have hside : Alongside o (k.site depth w t) S ((k.site depth w t).resolve w.env)
            (· ∈ ownedAfter own [(t, ((k.site depth w t).report q u).1)] t)
            ((k.site depth w t).report q u).2 ((k.site depth w t).report q v).2 := by
          simpa only [ownedAfter_self, List.mem_append] using hside
        obtain ⟨hrecords, hend⟩ :=
          ih hrest (fun q' hq' => hown q' (List.mem_cons_of_mem _ hq')) hothers' hafter hside
        rw [ofSession_cons_self, ofSession_cons_self, Site.serve_cons, List.map_cons, List.map_cons,
          hshown, hrecords]
        exact ⟨rfl, hend⟩
      · rw [ofSession_cons_of_ne ht] at hown ⊢
        rw [ofSession_cons_of_ne ht]
        have hside := hw.of_elsewhere htouched
          (fun source hs hdrawn => hothers _ List.mem_cons_self ht source hdrawn hs)
          (fun c hc hc' => hu.apart s t (Ne.symm ht) c hc hc')
          (hafter.length_eq.trans hu.length_eq.symm) (hkept s (Ne.symm ht))
        refine ih hrest hown hothers' hafter ?_
        rwa [ownedAfter_of_ne own _ ht]

end Schedules

end Playing

/-! ## Main result -/

/-- Two ways in which requests went, which come to the same: for each session, for each source, and
for each connection. -/
structure SameCourse {ε : Type} (k : Surroundings ε)
    (played played' : List (Nat × Record) × World ε) : Prop where
  records_eq : ∀ s,
    (ofSession s played.1).map Record.shown = (ofSession s played'.1).map Record.shown
  session_eq : ∀ s, played.2.session s = played'.2.session s
  opens_eq : ∀ source,
    opensFrom source played.2.log.toList = opensFrom source played'.2.log.toList
  isClosed_eq : ∀ c, k.isClosed played.2.env c = k.isClosed played'.2.env c

section Interleavings

variable {ε α β : Type} {k : Surroundings ε} {o : Outlook ε α β} {own : Nat → List Connection}
  {w : World ε} {depth : Nat} {z z' : List (Nat × Request)}

theorem mem_of_ofSession_eq (horder : ∀ s, ofSession s z = ofSession s z') {e : Nat × Request} :
    e ∈ z ↔ e ∈ z' := by
  rw [← mem_ofSession (s := e.1) (x := e.2), ← mem_ofSession, horder]

/-- What the requests of a session opened can be told from what is shown of them. -/
theorem ownedAfter_eq {records records' : List (Nat × Record)} {s : Nat}
    (h : (ofSession s records).map Record.shown = (ofSession s records').map Record.shown) :
    ownedAfter own records s = ownedAfter own records' s := by
  have hshown : ∀ rs : List Record, rs.flatMap Record.opened =
      (rs.map Record.shown).flatMap Record.opened := by
    intro rs
    rw [List.flatMap_map]
    exact congrArg rs.flatMap (funext fun r => r.opened_shown.symm)
  rw [ownedAfter, ownedAfter, hshown, h, ← hshown]

/-- Requests on different sessions draw on different sources. -/
def DrawApart (k : Surroundings ε) (depth : Nat) (w : World ε) (z : List (Nat × Request)) : Prop :=
  ∀ e ∈ z, ∀ e' ∈ z, e.1 ≠ e'.1 → ∀ source ∈ (k.site depth w e.1).drawn w.env e.2,
    source ∉ (k.site depth w e'.1).drawn w.env e'.2

/-- Each session that requests are made on is answered what it would be answered alone. -/
theorem play_eq_serve (h : Apart k o) (hz : ∀ e ∈ z, (k.site depth w e.1).In w)
    (hapart : DrawApart k depth w z) (hw : Owned k o own w w) {e : Nat × Request} (he : e ∈ z) :
    (ofSession e.1 (k.play depth z w).1).map Record.shown =
        ((k.site depth w e.1).serve (ofSession e.1 z) w).1.map Record.shown ∧
      Alongside o (k.site depth w e.1)
        (fun source => ∃ q ∈ ofSession e.1 z, source ∈ (k.site depth w e.1).drawn w.env q)
        ((k.site depth w e.1).resolve w.env) (· ∈ ownedAfter own (k.play depth z w).1 e.1)
        (k.play depth z w).2 ((k.site depth w e.1).serve (ofSession e.1 z) w).2 := by
  have hin := hz e he
  refine play_alongside h hz (fun q hq source hdrawn => ⟨q, hq, hdrawn⟩) ?_ hw
    ⟨.refl hw.calm, hin, hin, rfl, hw.held e.1, hw.known e.1, rfl⟩
  rintro e' he' hne source hdrawn ⟨q, hq, hdrawn'⟩
  exact hapart e' he' (e.1, q) (mem_ofSession.mp hq) hne source hdrawn hdrawn'

theorem DrawApart.reorder (hapart : DrawApart k depth w z)
    (horder : ∀ s, ofSession s z = ofSession s z') : DrawApart k depth w z' := fun e he e' he' =>
  hapart e ((mem_of_ofSession_eq horder).mpr he) e' ((mem_of_ofSession_eq horder).mpr he')

/-- In two schedules with the same requests on a session, it goes the same: both go as it would
alone. -/
theorem play_eq_play (h : Apart k o) (hz : ∀ e ∈ z, (k.site depth w e.1).In w)
    (hapart : DrawApart k depth w z) (horder : ∀ s, ofSession s z = ofSession s z')
    (hw : Owned k o own w w) {e : Nat × Request} (he : e ∈ z) :
    (ofSession e.1 (k.play depth z w).1).map Record.shown =
        (ofSession e.1 (k.play depth z' w).1).map Record.shown ∧
      (k.play depth z w).2.session e.1 = (k.play depth z' w).2.session e.1 ∧
      Agree k o (· ∈ (k.site depth w e.1).drawn w.env e.2)
        (· ∈ ownedAfter own (k.play depth z w).1 e.1) (k.play depth z w).2
        (k.play depth z' w).2 := by
  have hz' : ∀ e ∈ z', (k.site depth w e.1).In w := fun e he =>
    hz e ((mem_of_ofSession_eq horder).mpr he)
  obtain ⟨hrecords, hside⟩ := play_eq_serve h hz hapart hw he
  obtain ⟨hrecords', hside'⟩ :=
    play_eq_serve h hz' (hapart.reorder horder) hw ((mem_of_ofSession_eq horder).mp he)
  rw [← horder] at hrecords' hside'
  have hsame := hrecords.trans hrecords'.symm
  rw [← ownedAfter_eq hsame] at hside'
  refine ⟨hsame, hside.session_eq.trans hside'.session_eq.symm, ?_⟩
  exact (hside.agree.trans hside'.agree.symm).mono
    (fun source hs => ⟨e.2, mem_ofSession.mpr he, hs⟩) fun c hc => hc

/-- Sessions that draw on different sources may be served in any order: as long as the requests of
each session come in their own order, each is answered the same, and in the end sessions hold the
same, sources have opened the same, and the same connections are closed. -/
theorem sessions_independent (h : Apart k o) (steps : List (Step ε)) (env : ε)
    (hw : k.run depth steps (.new env) = w) (hcalm : o.calm w.env)
    (hfresh : (gather Event.opens w.log.toList).Nodup)
    (hknown : ∀ c ∈ gather Event.opens w.log.toList, (o.ofConnection w.env c).isSome)
    (hthere : ∀ e ∈ z, e.1 < w.sessions.length ∧ (w.session e.1).router.routes.isSome)
    (hapart : DrawApart k depth w z) (horder : ∀ s, ofSession s z = ofSession s z') :
    SameCourse k (k.play depth z w) (k.play depth z' w) := by
  have howned : Owned k o (fun s => (w.session s).holdings.all) w w :=
    World.Settled.owned (hw ▸ k.settled_run depth steps env) hcalm hfresh hknown
  have hz : ∀ e ∈ z, (k.site depth w e.1).In w := fun e he =>
    Surroundings.site_in (hthere e he).1 (hthere e he).2
  have hmem : ∀ {e}, e ∈ z' → e ∈ z := (mem_of_ofSession_eq horder).mpr
  have hsame := fun {e} he => play_eq_play (e := e) h hz hapart horder howned he
  -- whatever no request is concerned with stays as it was in both
  obtain ⟨-, hframe, hrest⟩ := play_frame h hz howned
  obtain ⟨-, hframe', hrest'⟩ := play_frame h (fun e he => hz e (hmem he)) howned
  have hnone : ∀ {s}, (¬ ∃ e ∈ z, e.1 = s) → (∀ e ∈ z, e.1 ≠ s) ∧ ∀ e ∈ z', e.1 ≠ s :=
    fun hs => ⟨fun e he heq => hs ⟨e, he, heq⟩, fun e he heq => hs ⟨e, hmem he, heq⟩⟩
  refine ⟨fun s => ?_, fun s => ?_, fun source => ?_, fun c => ?_⟩
  · by_cases hs : ∃ e ∈ z, e.1 = s
    · obtain ⟨e, he, rfl⟩ := hs
      exact (hsame he).1
    · rw [(hrest s (hnone hs).1).1, (hrest' s (hnone hs).2).1]
  · by_cases hs : ∃ e ∈ z, e.1 = s
    · obtain ⟨e, he, rfl⟩ := hs
      exact (hsame he).2.1
    · rw [(hrest s (hnone hs).1).2, (hrest' s (hnone hs).2).2]
  · by_cases hs : ∃ e ∈ z, source ∈ (k.site depth w e.1).drawn w.env e.2
    · obtain ⟨e, he, hdrawn⟩ := hs
      exact (hsame he).2.2.opens_eq source hdrawn
    · rw [hframe.opens_eq source fun e he hdrawn => hs ⟨e, he, hdrawn⟩,
        hframe'.opens_eq source fun e he hdrawn => hs ⟨e, hmem he, hdrawn⟩]
  · refine h.isClosed_eq hframe.calm_left hframe'.calm_left ?_
    by_cases hc : ∃ e ∈ z,
        c ∈ ownedAfter (fun s => (w.session s).holdings.all) (k.play depth z w).1 e.1
    · obtain ⟨e, he, hc⟩ := hc
      exact (hsame he).2.2.connection_eq c hc
    · rw [hframe.connection_eq c fun e he hown => hc ⟨e, he, hown⟩]
      refine (hframe'.connection_eq c fun e he hown => hc ⟨e, hmem he, ?_⟩).symm
      rwa [ownedAfter_eq (hsame (hmem he)).1]

end Interleavings

/-! ## Two sources -/

namespace Stage

/-- One source opens two connections only, the other fails to close them. -/
def pair : Stage :=
  ⟨[.new "a" ⟨some 2, none, false, []⟩, .new "b" ⟨none, none, true, []⟩], [], 0,
    .scripted (.ofList [("s", ["a", "b"])]) none none⟩

/-- Two sessions, which both have acquired something. -/
def arrivals : List Instruction :=
  [.call (.newSession "s"), .call (.newSession "s"), .call (.acquire 0 "a" 1 .memoryStrictly),
    .call (.acquire 1 "b" 1 .connectionStrictly)]

/-- An acquisition that is rolled back, and a release that fails, among others. -/
def alternating : List (Nat × Request) :=
  [(0, .acquire "a" 3 .memoryStrictly), (1, .acquire "b" 2 .memoryStrictly), (0, .isValid),
    (1, .release), (0, .release), (1, .heldNames)]

/-- The same requests, those of the second session first. -/
def reordered : List (Nat × Request) :=
  alternating.filter (·.1 == 1) ++ alternating.filter (·.1 == 0)

/-- The world in which the requests are made. -/
def arrived : World Stage :=
  surroundings.run 0 (arrivals.map Instruction.step) (.new pair)

end Stage

theorem pair_independent :
    SameCourse Stage.surroundings (Stage.surroundings.play 0 Stage.alternating Stage.arrived)
        (Stage.surroundings.play 0 Stage.reordered Stage.arrived) ∧
      (Stage.surroundings.play 0 Stage.alternating Stage.arrived).1.map
        (fun e => e.2.shown.events.length) = [6, 4, 0, 4, 2, 0] := by
  have hrun : Stage.surroundings.run 0 (Stage.arrivals.map Stage.Instruction.step)
      (.new Stage.pair) = Stage.arrived := rfl
  have hcalm : Stage.outlook.calm Stage.arrived.env := by
    show Stage.Calm _
    decide +kernel
  have hfresh : (gather Event.opens Stage.arrived.log.toList).Nodup := by
    rw [← hrun]
    exact Stage.nodup_opens 0 Stage.arrivals Stage.pair
  have hapart : DrawApart Stage.surroundings 0 Stage.arrived Stage.alternating := by
    unfold DrawApart
    decide +kernel
  have horder : ∀ s, ofSession s Stage.alternating = ofSession s Stage.reordered := by
    intro s
    match s with
    | 0 => rfl
    | 1 => rfl
    | s + 2 => rfl
  exact ⟨sessions_independent Stage.apart _ _ hrun hcalm hfresh (by decide +kernel)
    (by decide +kernel) hapart horder, by decide +kernel⟩

end SessionBroker
