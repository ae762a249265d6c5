/-!
# Finding one text in another

`splitAtFirst? needle text` cuts `text` in front of the first place where
`needle` stands. The laws say that nothing is lost, that the second part starts
with the needle, and when there is no such place.
-/

namespace SessionBroker.Text

variable {α : Type} [DecidableEq α]

/-- The part before the first occurrence of the needle, and the part from it on. -/
def splitAtFirst? (needle : List α) : List α → Option (List α × List α)
  | [] => if needle.isEmpty then some ([], []) else none
  | c :: cs =>
    if needle.isPrefixOf (c :: cs) then some ([], c :: cs)
    else (splitAtFirst? needle cs).map fun p => (c :: p.1, p.2)

def occursIn (needle text : List α) : Bool := (splitAtFirst? needle text).isSome

theorem append_of_splitAtFirst? {needle text a b : List α}
    (h : splitAtFirst? needle text = some (a, b)) : a ++ b = text := by
  induction text generalizing a b with
  | nil =>
    simp only [splitAtFirst?] at h
    split at h <;> simp_all
  | cons c cs ih =>
    simp only [splitAtFirst?] at h
    split at h
    · simp only [Option.some.injEq, Prod.mk.injEq] at h
      obtain ⟨rfl, rfl⟩ := h
      rfl
    · obtain ⟨p, hp, heq⟩ := Option.map_eq_some_iff.1 h
      obtain ⟨a', b'⟩ := p
      simp only [Prod.mk.injEq] at heq
      obtain ⟨rfl, rfl⟩ := heq
      simp [ih hp]

theorem isPrefixOf_of_splitAtFirst? {needle text a b : List α}
    (h : splitAtFirst? needle text = some (a, b)) : needle.isPrefixOf b = true := by
  induction text generalizing a b with
  | nil =>
    simp only [splitAtFirst?] at h
    split at h
    · rename_i hn
      simp only [List.isEmpty_iff] at hn
      simp [hn]
    · simp at h
  | cons c cs ih =>
    simp only [splitAtFirst?] at h
    split at h
    · rename_i hp
      simp only [Option.some.injEq, Prod.mk.injEq] at h
      obtain ⟨rfl, rfl⟩ := h
      exact hp
    · obtain ⟨p, hp, heq⟩ := Option.map_eq_some_iff.1 h
      obtain ⟨a', b'⟩ := p
      simp only [Prod.mk.injEq] at heq
      obtain ⟨rfl, rfl⟩ := heq
      exact ih hp

/-- There is no such place just when the needle does not occur. -/
theorem splitAtFirst?_eq_none {needle text : List α} :
    splitAtFirst? needle text = none ↔ ¬ needle <:+: text := by
  induction text with
  | nil =>
    rw [List.infix_nil, ← List.isEmpty_iff]
    cases h : needle.isEmpty <;> simp [splitAtFirst?, h]
  | cons c cs ih =>
    rw [List.infix_cons_iff, ← List.isPrefixOf_iff_prefix]
    cases h : needle.isPrefixOf (c :: cs) <;> simp [splitAtFirst?, h, ih]

end SessionBroker.Text
