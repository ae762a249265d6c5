import SessionBroker.Session.Holdings

/-!
# Counting held connections

How often a connection is held, over all names: a batch adds what it contains, draining
takes everything. A connection that is held once is held in one place.
-/

namespace SessionBroker

/-! ## Lists -/

theorem eq_of_getElem?_of_count_le_one {κ : Type} [DecidableEq κ] {c : κ} {xs : List κ} {i j : Nat}
    (hcount : xs.count c ≤ 1) (hi : xs[i]? = some c) (hj : xs[j]? = some c) : i = j := by
  induction xs generalizing i j with
  | nil => simp at hi
  | cons x xs ih =>
      have hnot : x = c → c ∉ xs := by
        rintro rfl hmem
        have hpos := List.count_pos_iff.mpr hmem
        rw [List.count_cons_self] at hcount
        omega
      cases i with
      | zero =>
          cases j with
          | zero => rfl
          | succ j =>
              have hmem : c ∈ xs := List.mem_of_getElem? (i := j) (by simpa using hj)
              exact absurd hmem (hnot (by simpa using hi))
      | succ i =>
          cases j with
          | zero =>
              have hmem : c ∈ xs := List.mem_of_getElem? (i := i) (by simpa using hi)
              exact absurd hmem (hnot (by simpa using hj))
          | succ j =>
              have htail : xs.count c ≤ 1 := Nat.le_trans List.count_le_count_cons hcount
              exact congrArg Nat.succ (ih htail hi hj)

/-- Of a list that grows at its end, an element is a new one if it has not occurred before. -/
theorem eraseDups_concat {α : Type} [DecidableEq α] (xs : List α) (x : α) :
    (xs ++ [x]).eraseDups =
      if x ∈ xs.eraseDups then xs.eraseDups else xs.eraseDups ++ [x] := by
  rw [List.eraseDups_append]
  by_cases hx : x ∈ xs
  · rw [if_pos (List.mem_eraseDups.mpr hx)]
    simp [List.removeAll, hx]
  · rw [if_neg fun h => hx (List.mem_eraseDups.mp h)]
    simp [List.removeAll, hx, List.eraseDups_cons]

/-! ## Entry lists -/

namespace OrderedMap

variable {κ α : Type} [DecidableEq κ] [DecidableEq α]

/-- Putting a list under a key replaces the occurrences in the old list by those in the new. -/
theorem count_put (c : α) (k : κ) (a : List α) (es : List (κ × List α)) :
    ((put k a es).flatMap Prod.snd).count c + ((es.lookup k).getD []).count c =
      (es.flatMap Prod.snd).count c + a.count c := by
  induction es with
  | nil => simp [put]
  | cons e es ih =>
      obtain ⟨i, b⟩ := e
      by_cases h : i = k
      · subst h
        simp only [put, if_true, List.lookup_cons_self, List.flatMap_cons, List.count_append,
          Option.getD_some]
        omega
      · simp only [put, h, if_false, lookup_cons_of_ne (Ne.symm h),
          List.flatMap_cons, List.count_append]
        omega

theorem count_lookup_le (c : α) (k : κ) (es : List (κ × List α)) :
    ((es.lookup k).getD []).count c ≤ (es.flatMap Prod.snd).count c := by
  induction es with
  | nil => simp
  | cons e es ih =>
      obtain ⟨i, b⟩ := e
      rw [List.flatMap_cons, List.count_append]
      by_cases h : i = k
      · subst h
        simp only [List.lookup_cons_self, Option.getD_some]
        omega
      · simp only [lookup_cons_of_ne (Ne.symm h)]
        omega

theorem count_lookup_add_le (c : α) {k j : κ} (hne : k ≠ j) (es : List (κ × List α)) :
    ((es.lookup k).getD []).count c + ((es.lookup j).getD []).count c ≤
      (es.flatMap Prod.snd).count c := by
  induction es with
  | nil => simp
  | cons e es ih =>
      obtain ⟨i, b⟩ := e
      rw [List.flatMap_cons, List.count_append]
      by_cases hk : i = k
      · subst hk
        have hle := count_lookup_le c j es
        simp only [List.lookup_cons_self, lookup_cons_of_ne hne.symm, Option.getD_some]
        omega
      · by_cases hj : i = j
        · subst hj
          have hle := count_lookup_le c k es
          simp only [List.lookup_cons_self, lookup_cons_of_ne hne, Option.getD_some]
          omega
        · simp only [lookup_cons_of_ne (Ne.symm hk), lookup_cons_of_ne (Ne.symm hj)]
          omega

end OrderedMap

/-! ## Holdings -/

namespace Holdings

variable {κ : Type}

/-- All that is held, under whatever name. -/
def all (h : Holdings κ) : List κ := h.entries.flatMap Prod.snd

@[simp]
theorem all_empty : (empty : Holdings κ).all = [] := rfl

theorem mem_all_iff {h : Holdings κ} {c : κ} : c ∈ h.all ↔ ∃ name, c ∈ h.heldFor name := by
  constructor
  · intro hc
    obtain ⟨⟨name, cs⟩, hmem, hc⟩ := List.mem_flatMap.mp hc
    refine ⟨name, ?_⟩
    rw [heldFor, OrderedMap.get?_eq_some_iff.mpr hmem]
    exact hc
  · rintro ⟨name, hc⟩
    rw [heldFor] at hc
    rcases hget : h.byName.get? name with _ | cs
    · simp [hget] at hc
    · rw [hget, Option.getD_some] at hc
      exact List.mem_flatMap.mpr ⟨(name, cs), OrderedMap.get?_eq_some_iff.mp hget, hc⟩

/-- Each name stands with what is held for it. -/
theorem entries_eq (h : Holdings κ) :
    h.entries = h.names.map fun name => (name, h.heldFor name) := by
  have hentry : ∀ e ∈ h.entries, e = (e.1, h.heldFor e.1) := by
    intro e he
    rw [heldFor, OrderedMap.get?_eq_some_iff.mpr he, Option.getD_some]
  unfold names OrderedMap.keys
  rw [List.map_map]
  exact (List.map_id h.entries).symm.trans (List.map_congr_left hentry)

variable [DecidableEq κ]

theorem count_all_hold (h : Holdings κ) (name : String) (batch : List κ) (c : κ) :
    (h.hold name batch).all.count c = h.all.count c + batch.count c := by
  have hput := OrderedMap.count_put c name (h.heldFor name ++ batch) h.byName.entries
  rw [List.count_append] at hput
  simp only [all, entries, hold, OrderedMap.insert]
  simp only [heldFor, OrderedMap.get?] at hput ⊢
  omega

theorem mem_all_hold {h : Holdings κ} {name : String} {batch : List κ} {c : κ} :
    c ∈ (h.hold name batch).all ↔ c ∈ h.all ∨ c ∈ batch := by
  rw [← List.count_pos_iff, ← List.count_pos_iff, ← List.count_pos_iff, count_all_hold]
  omega

/-- A connection that is held once stands under one name, at one place. -/
theorem place_unique {h : Holdings κ} {c : κ} (hcount : h.all.count c ≤ 1) {n m : String}
    {i j : Nat} (hn : (h.heldFor n)[i]? = some c) (hm : (h.heldFor m)[j]? = some c) :
    n = m ∧ i = j := by
  have hname : n = m := by
    refine Decidable.byContradiction fun hne => ?_
    have hle := OrderedMap.count_lookup_add_le c hne h.byName.entries
    have hpos : 0 < (h.heldFor n).count c := List.count_pos_iff.mpr (List.mem_of_getElem? hn)
    have hpos' : 0 < (h.heldFor m).count c := List.count_pos_iff.mpr (List.mem_of_getElem? hm)
    simp only [all, entries] at hcount
    simp only [heldFor, OrderedMap.get?] at hpos hpos'
    omega
  subst hname
  have hle := OrderedMap.count_lookup_le c n h.byName.entries
  refine ⟨rfl, eq_of_getElem?_of_count_le_one (Nat.le_trans hle hcount) hn hm⟩

end Holdings

end SessionBroker
