import Mathlib.Data.List.Induction
import SessionBroker.Proofs.Sequence

/-!
# What was demanded

When calls do not overlap, what a session holds is told by what was demanded of it since its last
release: for each name as many connections as the largest demand, the names in the order of their
first demand. Demands are the acquisitions that succeeded and keep what they open; no other call
leaves a mark.
-/

namespace SessionBroker

/-! ## Demands -/

/-- An acquisition that succeeded and kept what it opened, and what it was answered. -/
structure Demand where
  name : String
  count : Nat
  batch : List Connection
deriving DecidableEq

section Demands

variable {ε : Type}

/-- What a step demands of a session, if it succeeds. -/
def Occurrence.demand (k : Surroundings ε) (s : Nat) (m : Occurrence ε) : Option Demand :=
  match m.step, (m.result k).1 with
  | .call (.acquire t name count .memoryStrictly), .answered (.connections cs) =>
    if t = s then some ⟨name, count, cs⟩ else none
  | _, _ => none

def Occurrence.releases (s : Nat) (m : Occurrence ε) : Bool :=
  match m.step with
  | .call (.release t) => t == s
  | _ => false

/-- The demands on a session since its last release, after one more step. -/
def noteDemand (k : Surroundings ε) (s : Nat) (ds : List Demand) (m : Occurrence ε) : List Demand :=
  if m.releases s then [] else ds ++ (m.demand k s).toList

/-- The demands on a session since its last release, in their order. -/
def demands (k : Surroundings ε) (s : Nat) (ms : List (Occurrence ε)) : List Demand :=
  ms.foldl (noteDemand k s) []

/-- The largest count that was demanded for a name; 0 if there is no demand for it. -/
def peak (name : String) (ds : List Demand) : Nat :=
  ((ds.filter (·.name = name)).map Demand.count).foldl max 0

/-- The names that were demanded, in the order of their first demand. -/
def firstNames (ds : List Demand) : List String := (ds.map Demand.name).eraseDups

end Demands

theorem peak_concat (name : String) (ds : List Demand) (d : Demand) :
    peak name (ds ++ [d]) = if d.name = name then max (peak name ds) d.count else peak name ds := by
  by_cases hname : d.name = name
  · simp [peak, List.filter_append, hname]
  · simp [peak, List.filter_append, hname]

theorem firstNames_concat (ds : List Demand) (d : Demand) :
    firstNames (ds ++ [d]) =
      if d.name ∈ firstNames ds then firstNames ds else firstNames ds ++ [d.name] := by
  unfold firstNames
  rw [List.map_append, List.map_singleton]
  exact eraseDups_concat (ds.map Demand.name) d.name

/-! ## Meeting demands -/

/-- What is held meets the demands, and no more than that. -/
structure Meets (h : Holdings Connection) (ds : List Demand) : Prop where
  sizes : ∀ name, (h.heldFor name).length = peak name ds
  names_eq : h.names = firstNames ds
  /-- What was handed out to a demand comes first. -/
  handed : ∀ d ∈ ds, d.count ≤ (h.heldFor d.name).length ∧
    d.batch = (h.heldFor d.name).take d.count

theorem meets_nothing : Meets .empty [] where
  sizes := fun name => rfl
  names_eq := rfl
  handed := by simp

/-- A demand that is met by what is held, and by a batch that makes up for what is missing. -/
theorem Meets.join {h : Holdings Connection} {ds : List Demand} (hmeets : Meets h ds) {name : String}
    {count : Nat} (hcount : count ≠ 0) {opened : List Connection}
    (hlen : opened.length = count - (h.heldFor name).length) :
    Meets (h.join name opened) (ds ++ [⟨name, count, (h.heldFor name).take count ++ opened⟩]) where
  sizes := by
    intro other
    rw [Holdings.heldFor_join, peak_concat, ← hmeets.sizes other]
    by_cases hother : other = name
    · subst hother
      rw [if_pos rfl, if_pos rfl, List.length_append, hlen]
      dsimp only
      omega
    · rw [if_neg hother, if_neg (Ne.symm hother)]
  names_eq := by
    have hsome : h.heldFor name ++ opened ≠ [] := by
      intro hnone
      have hzero := congrArg List.length hnone
      rw [List.length_append, hlen, List.length_nil] at hzero
      omega
    rw [Holdings.names_join hsome, firstNames_concat, hmeets.names_eq]
  handed := by
    intro d hd
    rw [Holdings.heldFor_join]
    rcases List.mem_append.mp hd with hd | hd
    · obtain ⟨hle, hbatch⟩ := hmeets.handed d hd
      by_cases hname : d.name = name
      · rw [if_pos hname, ← hname, List.length_append, List.take_append_of_le_length hle]
        exact ⟨Nat.le_add_right_of_le hle, hbatch⟩
      · rw [if_neg hname]
        exact ⟨hle, hbatch⟩
    · rw [List.mem_singleton.mp hd, if_pos rfl]
      dsimp only
      rw [List.length_append, hlen]
      refine ⟨by omega, ?_⟩
      -- either nothing was missing, or all that was held is handed out
      rcases Nat.le_total count (h.heldFor name).length with hle | hle
      · have hnone : opened = [] := List.eq_nil_of_length_eq_zero (by omega)
        rw [hnone, List.append_nil, List.append_nil]
      · rw [List.take_of_length_le hle, List.take_of_length_le]
        rw [List.length_append]
        omega

/-- Whoever is served next gets what a demand was met with, as far as that goes. -/
theorem Meets.agrees {h : Holdings Connection} {ds : List Demand} (hmeets : Meets h ds) {d : Demand}
    (hd : d ∈ ds) {count : Nat} {opened : List Connection}
    (hlen : opened.length = count - (h.heldFor d.name).length) :
    let cs := (h.heldFor d.name).take count ++ opened
    d.batch.length = d.count ∧ cs.length = count ∧
      d.batch.take (min d.count count) = cs.take (min d.count count) := by
  intro cs
  obtain ⟨hle, hbatch⟩ := hmeets.handed d hd
  have hshort : min d.count count ≤ ((h.heldFor d.name).take count).length := by
    rw [List.length_take]
    omega
  refine ⟨?_, ?_, ?_⟩
  · rw [hbatch, List.length_take, Nat.min_eq_left hle]
  · rw [List.length_append, List.length_take, hlen]
    omega
  · rw [hbatch, List.take_append_of_le_length hshort, List.take_take, List.take_take,
      Nat.min_right_comm, Nat.min_self, Nat.min_assoc, Nat.min_self]

/-! ## Main result -/

section MainResult

variable {ε : Type} {k : Surroundings ε} {s : Nat} {m : Occurrence ε}

theorem Occurrence.demand_eq {name : String} {count : Nat} {cs : List Connection}
    (hstep : m.step = .call (.acquire s name count .memoryStrictly))
    (hresult : (m.result k).1 = .answered (.connections cs)) :
    m.demand k s = some ⟨name, count, cs⟩ := by
  rw [Occurrence.demand, hstep, hresult]
  exact if_pos rfl

/-- A step demands nothing, or is an acquisition that succeeded and keeps what it opened. -/
theorem Occurrence.demand_cases (k : Surroundings ε) (s : Nat) (m : Occurrence ε) :
    (∃ name count cs, m.step = .call (.acquire s name count .memoryStrictly) ∧
      (m.result k).1 = .answered (.connections cs) ∧ m.demand k s = some ⟨name, count, cs⟩) ∨
    ((∀ name count cs, m.step = .call (.acquire s name count .memoryStrictly) →
      (m.result k).1 ≠ .answered (.connections cs)) ∧ m.demand k s = none) := by
  by_cases hdemand : ∃ name count cs, m.step = .call (.acquire s name count .memoryStrictly) ∧
    (m.result k).1 = .answered (.connections cs)
  · obtain ⟨name, count, cs, hstep, hresult⟩ := hdemand
    exact .inl ⟨name, count, cs, hstep, hresult, Occurrence.demand_eq hstep hresult⟩
  · refine .inr ⟨fun name count cs hstep hresult => hdemand ⟨name, count, cs, hstep, hresult⟩, ?_⟩
    unfold Occurrence.demand
    split
    next t name count cs hstep hresult =>
      rw [if_neg]
      rintro rfl
      exact hdemand ⟨name, count, cs, hstep, hresult⟩
    next => rfl

theorem Occurrence.releases_iff : m.releases s = true ↔ m.step = .call (.release s) := by
  unfold Occurrence.releases
  constructor
  · intro h
    split at h
    next t hstep => rw [hstep, beq_iff_eq.mp h]
    next => cases h
  · intro hstep
    rw [hstep]
    exact beq_self_eq_true s

theorem demands_concat (ms : List (Occurrence ε)) (m : Occurrence ε) :
    demands k s (ms ++ [m]) = noteDemand k s (demands k s ms) m := by
  unfold demands
  rw [List.foldl_append]
  rfl

/-- What one step, alone, does to the demands it does to the holdings. -/
theorem Meets.step {ds : List Demand} (h : Meets (m.world.session s).holdings ds)
    (hdepth : m.depth = 0) : Meets ((m.after k).session s).holdings (noteDemand k s ds m) := by
  unfold noteDemand
  by_cases hrelease : m.releases s = true
  · rw [if_pos hrelease, Occurrence.emptied_alone hdepth (Occurrence.releases_iff.mp hrelease)]
    exact meets_nothing
  rw [if_neg hrelease]
  rw [Occurrence.releases_iff] at hrelease
  rcases m.demand_cases k s with ⟨name, count, cs, hstep, hresult, hdemand⟩ | ⟨hnot, hdemand⟩
  · obtain ⟨opened, -, hcount, hlen, rfl, hheld⟩ := Occurrence.acquired_alone hdepth hstep hresult
    rw [hdemand, hheld rfl]
    exact h.join hcount hlen
  · rw [hdemand, Occurrence.still_alone hdepth hrelease hnot]
    exact (List.append_nil ds).symm ▸ h

theorem meets_run (k : Surroundings ε) (s : Nat) (steps : List (Step ε)) (env : ε) :
    Meets ((k.run 0 steps (.new env)).session s).holdings
      (demands k s (k.tourRun 0 steps (.new env))) := by
  induction steps using List.reverseRecOn with
  | nil => exact meets_nothing
  | append_singleton steps step ih =>
      rw [k.run_concat, k.tourRun_append, k.tourRun_cons_alone]
      show Meets _ (demands k s (_ ++ [_]))
      rw [demands_concat]
      exact ih.step (m := ⟨0, step, k.run 0 steps (.new env)⟩) rfl

/-- A demand counts until the session is released. -/
theorem mem_demands {d : Demand} (hdemand : m.demand k s = some d) (hstep : m.releases s = false)
    {pre mid : List (Occurrence ε)} (hmid : ∀ m ∈ mid, m.releases s = false) :
    d ∈ demands k s (pre ++ m :: mid) := by
  induction mid using List.reverseRecOn with
  | nil =>
      rw [demands_concat, noteDemand, if_neg (by simp [hstep]), hdemand]
      exact List.mem_append_right _ (List.mem_singleton_self d)
  | append_singleton mid last ih =>
      rw [← List.cons_append, ← List.append_assoc, demands_concat, noteDemand,
        if_neg (by simp [hmid last])]
      exact List.mem_append_left _ (ih fun m hm => hmid m (List.mem_append_left _ hm))

/-- A step that follows a run without overlaps. -/
def Surroundings.next (k : Surroundings ε) (env : ε) (steps : List (Step ε)) (step : Step ε) :
    Occurrence ε :=
  ⟨0, step, k.run 0 steps (.new env)⟩

/-- What demands come to, in a run without overlaps: for a session after the run, and for an
acquisition that follows it. -/
structure DemandsMet (k : Surroundings ε) (s : Nat) (env : ε) (steps : List (Step ε)) : Prop where
  /-- As many are held for a name as were demanded at most. -/
  sizes : ∀ name, ((k.run 0 steps (.new env)).heldFor s name).length =
    peak name (demands k s (k.tourRun 0 steps (.new env)))
  names_eq : ((k.run 0 steps (.new env)).session s).holdings.names =
    firstNames (demands k s (k.tourRun 0 steps (.new env)))
  /-- What exceeds that is opened. -/
  opens : ∀ name count mode cs,
    let m := k.next env steps (.call (.acquire s name count mode))
    (m.result k).1 = .answered (.connections cs) →
      (gather Event.opens (m.world.since (m.after k))).length =
        count - min count (peak name (demands k s (k.tourRun 0 steps (.new env))))
  /-- Until the session is released, the connections handed out to a demand are handed out again. -/
  agrees : ∀ name count₁ count mode cs₁ cs pre mid,
    let step₁ := .call (.acquire s name count₁ .memoryStrictly)
    steps = pre ++ step₁ :: mid → .call (.release s) ∉ mid →
      ((k.next env pre step₁).result k).1 = .answered (.connections cs₁) →
        ((k.next env steps (.call (.acquire s name count mode))).result k).1 =
            .answered (.connections cs) →
          cs₁.length = count₁ ∧ cs.length = count ∧
            cs₁.take (min count₁ count) = cs.take (min count₁ count)

/-- When calls do not overlap, what a session holds is told by the demands since its last release. -/
theorem demands_met (k : Surroundings ε) (s : Nat) (env : ε) (steps : List (Step ε)) :
    DemandsMet k s env steps := by
  have hmeets := meets_run k s steps env
  refine ⟨hmeets.sizes, hmeets.names_eq, ?_, ?_⟩
  · intro name count mode cs m hresult
    obtain ⟨opened, hopened, -, hlen, -, -⟩ :=
      Occurrence.acquired_alone (m := m) rfl rfl hresult
    have hpeak : (m.world.heldFor s name).length = _ := hmeets.sizes name
    rw [hopened, hlen, hpeak]
    omega
  · intro name count₁ count mode cs₁ cs pre mid step₁ hsteps hmid hresult₁ hresult
    have hdemand : (k.next env pre step₁).demand k s = some ⟨name, count₁, cs₁⟩ :=
      Occurrence.demand_eq rfl hresult₁
    have hmem : ⟨name, count₁, cs₁⟩ ∈ demands k s (k.tourRun 0 steps (.new env)) := by
      rw [hsteps, k.tourRun_append, k.tourRun_cons_alone]
      refine mem_demands hdemand rfl fun m hm => ?_
      have hstep := Surroundings.step_mem_alone hm
      rw [Bool.eq_false_iff, Ne, Occurrence.releases_iff]
      intro hrelease
      rw [hrelease] at hstep
      exact hmid hstep
    obtain ⟨opened, -, -, hlen, rfl, -⟩ :=
      Occurrence.acquired_alone (m := k.next env steps _) rfl rfl hresult
    exact hmeets.agrees hmem hlen

/-- A session that acquires a connection and then asks for two. -/
example : demands Stage.surroundings 0 (Stage.surroundings.tourRun 0
    (Stage.interruption.map Stage.Instruction.step) (.new (Stage.interrupted []))) =
      [⟨"ds", 1, [⟨0, 0⟩]⟩, ⟨"ds", 2, [⟨0, 0⟩, ⟨0, 1⟩]⟩] := by decide +kernel

end MainResult

end SessionBroker
