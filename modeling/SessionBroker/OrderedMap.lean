/-!
# Maps that remember the order of insertion

A map from keys to values whose entries stand in the order in which their keys
were first inserted. Inserting under a known key replaces the value and keeps
the key's place. Data source names, pool properties and held connections are all
kept in such maps, because their order shows in every answer.

The laws below the definitions say what `insert` and `ofList` do to the keys, to the
look-up and to the entries; nothing else needs to unfold them.
-/

namespace SessionBroker

/-- Keys with their values, in the order in which the keys were first inserted. -/
@[ext]
structure OrderedMap (κ α : Type) where
  entries : List (κ × α)
  nodup_keys : (entries.map Prod.fst).Nodup
deriving DecidableEq

namespace OrderedMap

/-! ## Entry lists -/

/-- Replaces the value of the first entry under `k`, or adds an entry at the end. -/
def put {κ α : Type} [DecidableEq κ] (k : κ) (a : α) : List (κ × α) → List (κ × α)
  | [] => [(k, a)]
  | e :: es => if e.1 = k then (k, a) :: es else e :: put k a es

section EntryLaws

variable {κ α : Type} [DecidableEq κ]

theorem keys_put (k : κ) (a : α) (es : List (κ × α)) :
    (put k a es).map Prod.fst =
      if k ∈ es.map Prod.fst then es.map Prod.fst else es.map Prod.fst ++ [k] := by
  induction es with
  | nil => simp [put]
  | cons e es ih =>
    by_cases h : e.1 = k
    · simp [put, h]
    · have h' : ¬ k = e.1 := fun hk => h hk.symm
      simp only [put, h, if_false, List.map_cons, ih, List.mem_cons, h', false_or]
      split <;> simp

theorem nodup_put {k : κ} {a : α} {es : List (κ × α)} (h : (es.map Prod.fst).Nodup) :
    ((put k a es).map Prod.fst).Nodup := by
  rw [keys_put]
  split
  · exact h
  · rename_i hk
    rw [List.nodup_append]
    refine ⟨h, by simp, ?_⟩
    intro x hx y hy
    simp only [List.mem_singleton] at hy
    subst hy
    exact fun hxy => hk (hxy ▸ hx)

theorem lookup_cons_of_ne {j k : κ} (h : j ≠ k) (a : α) (es : List (κ × α)) :
    ((k, a) :: es).lookup j = es.lookup j := by
  rw [List.lookup_cons, beq_false_of_ne h]

theorem lookup_put (k j : κ) (a : α) (es : List (κ × α)) :
    (put k a es).lookup j = if j = k then some a else es.lookup j := by
  induction es with
  | nil =>
    by_cases h : j = k
    · simp [put, h]
    · simp [put, h, lookup_cons_of_ne h]
  | cons e es ih =>
    obtain ⟨i, b⟩ := e
    by_cases hi : i = k
    · subst hi
      by_cases h : j = i
      · simp [put, h]
      · simp [put, h, lookup_cons_of_ne h]
    · by_cases hj : j = i
      · subst hj
        simp [put, hi]
      · simp [put, hi, lookup_cons_of_ne hj, ih]

end EntryLaws

/-! ## The map and its operations -/

section Operations

variable {κ α β : Type}

def empty : OrderedMap κ α := ⟨[], List.nodup_nil⟩

instance : Inhabited (OrderedMap κ α) := ⟨empty⟩

/-- The keys in the order of their first insertion. -/
def keys (m : OrderedMap κ α) : List κ := m.entries.map Prod.fst

def values (m : OrderedMap κ α) : List α := m.entries.map Prod.snd

def isEmpty (m : OrderedMap κ α) : Bool := m.entries.isEmpty

variable [DecidableEq κ]

def insert (m : OrderedMap κ α) (k : κ) (a : α) : OrderedMap κ α :=
  ⟨put k a m.entries, nodup_put m.nodup_keys⟩

def get? (m : OrderedMap κ α) (k : κ) : Option α := m.entries.lookup k

def contains (m : OrderedMap κ α) (k : κ) : Bool := (m.get? k).isSome

/-- Inserts the entries one after the other: a repeated key keeps its first place
and its last value. -/
def ofList (es : List (κ × α)) : OrderedMap κ α :=
  es.foldl (fun m e => m.insert e.1 e.2) empty

/-- Whether two maps hold the same values under the same keys, in whatever order. -/
def sameEntries (same : α → α → Bool) (m n : OrderedMap κ α) : Bool :=
  m.entries.length == n.entries.length &&
    m.entries.all fun e =>
      match n.get? e.1 with
      | none => false
      | some a => same e.2 a

end Operations

/-! ## Laws of insertion -/

variable {κ α : Type} [DecidableEq κ]

@[simp]
theorem keys_insert (m : OrderedMap κ α) (k : κ) (a : α) :
    (m.insert k a).keys = if k ∈ m.keys then m.keys else m.keys ++ [k] :=
  keys_put k a m.entries

theorem get?_insert (m : OrderedMap κ α) (k j : κ) (a : α) :
    (m.insert k a).get? j = if j = k then some a else m.get? j :=
  lookup_put k j a m.entries

@[simp]
theorem get?_empty (k : κ) : (empty : OrderedMap κ α).get? k = none := rfl

theorem contains_iff_mem_keys (m : OrderedMap κ α) (k : κ) :
    m.contains k = true ↔ k ∈ m.keys := by
  simp [contains, get?, keys, List.lookup_isSome_iff]

theorem get?_eq_some_iff {m : OrderedMap κ α} {k : κ} {a : α} :
    m.get? k = some a ↔ (k, a) ∈ m.entries := by
  constructor
  · intro h
    obtain ⟨before, after, heq, -⟩ := List.lookup_eq_some_iff.mp h
    rw [heq]
    exact List.mem_append_right before List.mem_cons_self
  · intro h
    obtain ⟨before, after, heq⟩ := List.append_of_mem h
    have hnodup := m.nodup_keys
    rw [heq, List.map_append, List.nodup_append] at hnodup
    refine List.lookup_eq_some_iff.mpr ⟨before, after, heq, fun e he => bne_iff_ne.mpr ?_⟩
    exact (hnodup.2.2 e.1 (List.mem_map_of_mem he) k List.mem_cons_self).symm

theorem exists_get?_iff {m : OrderedMap κ α} {k : κ} :
    (∃ a, m.get? k = some a) ↔ k ∈ m.keys := by
  rw [← contains_iff_mem_keys, contains, Option.isSome_iff_exists]

/-- A map is told by its keys in their order, and by their values. -/
theorem eq_of_get? {m n : OrderedMap κ α} (hkeys : m.keys = n.keys)
    (hget : ∀ k, m.get? k = n.get? k) : m = n := by
  have hentries : ∀ m : OrderedMap κ α,
      m.entries.map some = m.keys.map fun k => (m.get? k).map (Prod.mk k) := by
    intro m
    rw [keys, List.map_map]
    refine List.map_congr_left fun e he => ?_
    show some e = (m.get? e.1).map (Prod.mk e.1)
    rw [get?_eq_some_iff.mpr he]
    rfl
  refine OrderedMap.ext ((List.map_inj_right fun _ _ => Option.some.inj).mp ?_)
  rw [hentries m, hentries n, hkeys, funext hget]

/-- A new key comes last. -/
theorem entries_insert_of_new {m : OrderedMap κ α} {k : κ} (h : k ∉ m.keys) (a : α) :
    (m.insert k a).entries = m.entries ++ [(k, a)] := by
  have hput : ∀ es : List (κ × α), k ∉ es.map Prod.fst → put k a es = es ++ [(k, a)] := by
    intro es hes
    induction es with
    | nil => rfl
    | cons e es ih =>
      rw [List.map_cons, List.mem_cons, not_or] at hes
      rw [put, if_neg (Ne.symm hes.1), ih hes.2, List.cons_append]
  exact hput m.entries h

/-- The value of the last entry under `k`. -/
def last? (k : κ) (es : List (κ × α)) : Option α :=
  ((es.filter fun e => e.1 = k).getLast?).map Prod.snd

theorem get?_foldl_insert (m : OrderedMap κ α) (es : List (κ × α)) (k : κ) :
    (es.foldl (fun m e => m.insert e.1 e.2) m).get? k = (last? k es).or (m.get? k) := by
  induction es generalizing m with
  | nil => rfl
  | cons e es ih =>
    rw [List.foldl_cons, ih, get?_insert]
    unfold last?
    by_cases h : e.1 = k
    · rw [if_pos h.symm, List.filter_cons_of_pos (by simpa using h), List.getLast?_cons]
      cases (es.filter fun e => e.1 = k).getLast? <;> rfl
    · rw [if_neg (Ne.symm h), List.filter_cons_of_neg (by simpa using h)]

/-- Of a repeated key the last value counts. -/
theorem get?_ofList (es : List (κ × α)) (k : κ) : (ofList es).get? k = last? k es := by
  rw [ofList, get?_foldl_insert, get?_empty, Option.or_none]

/-- A key whose entries in a list all have the same value. -/
theorem get?_ofList_of_forall {es : List (κ × α)} {k : κ} {a : α} (hmem : (k, a) ∈ es)
    (hall : ∀ e ∈ es, e.1 = k → e.2 = a) : (ofList es).get? k = some a := by
  have hne : (es.filter fun e => e.1 = k) ≠ [] :=
    List.ne_nil_of_mem (List.mem_filter.mpr ⟨hmem, by simp⟩)
  obtain ⟨hlast, hkey⟩ := List.mem_filter.mp (List.getLast_mem hne)
  rw [get?_ofList, last?, List.getLast?_eq_some_getLast hne, Option.map_some]
  exact congrArg some (hall _ hlast (by simpa using hkey))

/-- The entries of a map make the map again. -/
theorem ofList_entries (m : OrderedMap κ α) : ofList m.entries = m := by
  have hfold : ∀ (es : List (κ × α)) (n : OrderedMap κ α), (es.map Prod.fst).Nodup →
      (∀ e ∈ es, e.1 ∉ n.keys) →
      (es.foldl (fun m e => m.insert e.1 e.2) n).entries = n.entries ++ es := by
    intro es
    induction es with
    | nil => exact fun n _ _ => (List.append_nil n.entries).symm
    | cons e es ih =>
      intro n hnodup hfresh
      rw [List.map_cons, List.nodup_cons] at hnodup
      have hnew : e.1 ∉ n.keys := hfresh e List.mem_cons_self
      have hrest : ∀ x ∈ es, x.1 ∉ (n.insert e.1 e.2).keys := by
        intro x hx
        have hne : x.1 ≠ e.1 := fun heq => hnodup.1 (heq ▸ List.mem_map_of_mem hx)
        rw [keys_insert, if_neg hnew]
        simpa [hne] using hfresh x (List.mem_cons_of_mem e hx)
      rw [List.foldl_cons, ih _ hnodup.2 hrest, entries_insert_of_new hnew, List.append_assoc]
      rfl
  exact OrderedMap.ext (hfold m.entries empty m.nodup_keys fun _ _ => List.not_mem_nil)

theorem keys_foldl_insert (m : OrderedMap κ α) (es : List (κ × α)) :
    (es.foldl (fun m e => m.insert e.1 e.2) m).keys =
      m.keys ++ ((es.map Prod.fst).removeAll m.keys).eraseDups := by
  induction es generalizing m with
  | nil => simp [List.removeAll]
  | cons e es ih =>
    rw [List.foldl_cons, ih, keys_insert]
    by_cases h : e.1 ∈ m.keys
    · simp [h, List.removeAll]
    · simp only [h, if_false, List.map_cons, List.removeAll, List.filter_cons, List.elem_eq_mem,
        decide_false, Bool.not_false, if_true, List.eraseDups_cons, List.filter_filter,
        List.append_assoc, List.singleton_append]
      congr 3
      refine List.filter_congr fun k _ => ?_
      by_cases hk : k = e.1 <;> simp [hk]

/-- The keys of a list, each at its first place. -/
theorem keys_ofList (es : List (κ × α)) : (ofList es).keys = (es.map Prod.fst).eraseDups := by
  have hall : ∀ ks : List κ, ks.removeAll [] = ks := fun ks =>
    List.filter_eq_self.mpr fun _ _ => rfl
  rw [ofList, keys_foldl_insert]
  show [] ++ ((es.map Prod.fst).removeAll []).eraseDups = _
  rw [hall, List.nil_append]

end OrderedMap

end SessionBroker
